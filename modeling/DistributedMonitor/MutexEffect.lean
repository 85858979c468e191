import DistributedMonitor.Library.TicketExclusion
import DistributedMonitor.Ownership

/-! What a step means for one mutex: nearly all are quiet, and the others are the
steps of the exclusion protocol. -/

namespace DistributedMonitor
open Library TicketExclusion

variable {n : ℕ} {σ : Type} {serialization : Serialization σ} {self : ProcessId n}
  {monitors : List MonitorName} {permanent : List (SubscriptionId × Subscription)}
  {packet : Packet n} {process process' : Process n σ} {action : Action n σ}
  {consumed : Option (Packet n)} {sent : List (Envelope n)} {mutexName : MutexName}

def MainThread.phase (mutexName : MutexName) (time : LamportTime) : MainThread n σ → Phase
  | .collecting name _ _ _ => if name = mutexName then .awaiting time else .holding time
  | .releasing name _ _ => if name = mutexName then .releasing time else .holding time
  | _ => .holding time

def Process.phase (process : Process n σ) (mutexName : MutexName) : Phase :=
  match process.queuedMutexes mutexName with
  | none => .idle
  | some time => process.main.phase mutexName time

/-- Of the requests that have been deferred, those that a release in progress has not answered. -/
def MainThread.deferred (mutexName : MutexName) (requests : PacketSet n) :
    MainThread n σ → PacketSet n
  | .releasing name unanswered _ => if name = mutexName then unanswered else requests
  | _ => requests

def Process.deferred (process : Process n σ) (mutexName : MutexName) : PacketSet n :=
  process.main.deferred mutexName (process.receivedRequests mutexName)

def MainThread.agreements (mutexName : MutexName) : MainThread n σ → List (ProcessId n)
  | .queueing name _ received _ | .collecting name _ received _ =>
      if name = mutexName then received.senders else []
  | _ => []

theorem deferred_about (wf : process.WellFormed permanent) (mutexName : MutexName) :
    (process.deferred mutexName).About .mutexRequest mutexName := by
  unfold Process.deferred
  cases main : process.main with
  | releasing name unanswered caller =>
    have coherent := wf.coherent
    rw [main] at coherent
    simp only [MainThread.deferred]
    split_ifs with same
    · exact same ▸ coherent.1
    · exact wf.requests mutexName
  | _ => exact wf.requests mutexName

theorem phase_time {time : LamportTime} (stamp : (process.phase mutexName).time = some time) :
    process.queuedMutexes mutexName = some time := by
  unfold Process.phase at stamp
  split at stamp
  next none' => cases stamp
  next own queued =>
    rw [queued, ← stamp]
    cases process.main with
    | collecting | releasing =>
      simp only [MainThread.phase]
      split_ifs <;> rfl
    | _ => rfl

theorem phase_queued {time : LamportTime} (queued : process.queuedMutexes mutexName = some time) :
    process.phase mutexName = process.main.phase mutexName time := by
  simp only [Process.phase, queued]

theorem phase_idle (unqueued : process.queuedMutexes mutexName = none) :
    process.phase mutexName = .idle := by
  simp only [Process.phase, unqueued]

def Unrelated (mutexName : MutexName) (raws : List RawPacket) : Prop :=
  ∀ raw ∈ raws, raw.carries .mutexRequest mutexName = false ∧
    raw.carries .mutexAgreement mutexName = false

theorem unrelated_inbox {packet : Packet n} {source : ProcessId n}
    (other : (packet.messageType ≠ .mutexRequest ∧ packet.messageType ≠ .mutexAgreement) ∨
      packet.message ≠ mutexName) : Unrelated mutexName (inboxFrom source (some packet)) := by
  intro raw member
  simp only [inboxFrom] at member
  split_ifs at member
  · rw [List.mem_singleton.1 member]
    rcases other with ⟨request, agreement⟩ | message <;>
      simp [RawPacket.carries, Packet.raw, *]
  · cases member

theorem unrelated_sent {packet : Packet n} {recipients : Finset (ProcessId n)} {q : ProcessId n}
    (other : (packet.messageType ≠ .mutexRequest ∧ packet.messageType ≠ .mutexAgreement) ∨
      packet.message ≠ mutexName) : Unrelated mutexName (addressed [⟨packet, recipients⟩] q) := by
  rw [addressed_singleton]
  intro raw member
  split_ifs at member
  · rw [List.mem_singleton.1 member]
    rcases other with ⟨request, agreement⟩ | message <;>
      simp [RawPacket.carries, Packet.raw, *]
  · cases member

inductive MutexEffect (self : ProcessId n) (mutexName : MutexName) (process : Process n σ) :
    Action n σ → Option (Packet n) → Process n σ → List (Envelope n) → Prop where
  | quiet {action : Action n σ} {consumed : Option (Packet n)} {process' : Process n σ}
      {sent : List (Envelope n)}
      (ungranted : action = .acquired → ∀ time, process.phase mutexName ≠ .awaiting time)
      (unread : ∀ source, Unrelated mutexName (inboxFrom source consumed))
      (silent : ∀ recipient, Unrelated mutexName (addressed sent recipient))
      (clock : process.currentLamportTime ≤ process'.currentLamportTime)
      (phase : process'.phase mutexName = process.phase mutexName)
      (requests : process'.deferred mutexName = process.deferred mutexName)
      (agreements : process'.main.agreements mutexName = process.main.agreements mutexName) :
      MutexEffect self mutexName process action consumed process' sent
  | requested {action : Action n σ} {process' : Process n σ}
      (acquires : process.main.acquiring = some mutexName)
      (ready : process.phase mutexName = .idle ∨ ∃ time, process.phase mutexName = .holding time)
      (unowned : process.owned mutexName = false → process.phase mutexName = .idle)
      (clock : process'.currentLamportTime = process.currentLamportTime + 1)
      (phase : process'.phase mutexName = .awaiting (process.currentLamportTime + 1))
      (requests : process'.deferred mutexName = process.deferred mutexName)
      (agreements : process'.main.agreements mutexName = process.main.agreements mutexName) :
      MutexEffect self mutexName process action none process'
        [⟨⟨process.currentLamportTime + 1, self, .mutexRequest, mutexName⟩, otherProcesses self⟩]
  | granted {process' : Process n σ} {time : LamportTime} {received : PacketSet n}
      (before : process.phase mutexName = .awaiting time)
      (about : received.About .mutexAgreement mutexName)
      (collected : process.main.agreements mutexName = received.senders)
      (complete : received.size = n - 1)
      (clock : process'.currentLamportTime = process.currentLamportTime)
      (phase : process'.phase mutexName = .holding time)
      (requests : process'.deferred mutexName = process.deferred mutexName)
      (agreements : process'.main.agreements mutexName = []) :
      MutexEffect self mutexName process .acquired none process' []
  | leaving {action : Action n σ} {process' : Process n σ} {time : LamportTime}
      (before : process.phase mutexName = .holding time)
      (clock : process'.currentLamportTime = process.currentLamportTime)
      (phase : process'.phase mutexName = .releasing time)
      (requests : process'.deferred mutexName = process.deferred mutexName)
      (agreements : process'.main.agreements mutexName = process.main.agreements mutexName) :
      MutexEffect self mutexName process action none process' []
  | answered {action : Action n σ} {process' : Process n σ} {time : LamportTime} {source : ProcessId n}
      (before : process.phase mutexName = .releasing time)
      (waiting : source ∈ (process.deferred mutexName).senders)
      (clock : process'.currentLamportTime = process.currentLamportTime + 1)
      (phase : process'.phase mutexName = .releasing time)
      (requests : ∀ p, p ∈ (process'.deferred mutexName).senders ↔
        p ∈ (process.deferred mutexName).senders ∧ p ≠ source)
      (agreements : process'.main.agreements mutexName = process.main.agreements mutexName) :
      MutexEffect self mutexName process action none process'
        [⟨⟨process.currentLamportTime + 1, self, .mutexAgreement, mutexName⟩, {source}⟩]
  | left {action : Action n σ} {process' : Process n σ} {time : LamportTime}
      (before : process.phase mutexName = .releasing time)
      (clear : (process.deferred mutexName).senders = [])
      (clock : process'.currentLamportTime = process.currentLamportTime)
      (phase : process'.phase mutexName = .idle)
      (requests : (process'.deferred mutexName).senders = [])
      (agreements : process'.main.agreements mutexName = process.main.agreements mutexName) :
      MutexEffect self mutexName process action none process' []
  | agreed {process' : Process n σ} {packet : Packet n}
      (read : packet.raw.carries .mutexRequest mutexName = true)
      (allowed : process.canSendAgreement self packet = true)
      (clock : process'.currentLamportTime = process.currentLamportTime + 1)
      (phase : process'.phase mutexName = process.phase mutexName)
      (requests : process'.deferred mutexName = process.deferred mutexName)
      (agreements : process'.main.agreements mutexName = process.main.agreements mutexName) :
      MutexEffect self mutexName process .dispatch (some packet) process'
        [⟨⟨process.currentLamportTime + 1, self, .mutexAgreement, mutexName⟩, {packet.source}⟩]
  | deferred {process' : Process n σ} {packet : Packet n}
      (read : packet.raw.carries .mutexRequest mutexName = true)
      (refused : process.canSendAgreement self packet = false)
      (busy : ∀ time, process.phase mutexName ≠ .releasing time)
      (clock : process'.currentLamportTime = process.currentLamportTime)
      (phase : process'.phase mutexName = process.phase mutexName)
      (requests : ∀ p, p ∈ (process'.deferred mutexName).senders ↔
        p ∈ (process.deferred mutexName).senders ∨ p = packet.source)
      (agreements : process'.main.agreements mutexName = process.main.agreements mutexName) :
      MutexEffect self mutexName process .dispatch (some packet) process' []
  | counted {process' : Process n σ} {packet : Packet n}
      (read : packet.raw.carries .mutexAgreement mutexName = true)
      (clock : process'.currentLamportTime = process.currentLamportTime)
      (phase : process'.phase mutexName = process.phase mutexName)
      (requests : process'.deferred mutexName = process.deferred mutexName)
      (agreements : ∀ q, q ∈ process'.main.agreements mutexName ↔
        q ∈ process.main.agreements mutexName ∨ q = packet.source) :
      MutexEffect self mutexName process .dispatch (some packet) process' []

def MainThread.Elsewhere : MainThread n σ → Prop
  | .queueing _ _ _ _ | .collecting _ _ _ _ | .releasing _ _ _ => False
  | _ => True

theorem MainThread.Elsewhere.phase {main : MainThread n σ} (elsewhere : main.Elsewhere)
    (time : LamportTime) : main.phase mutexName time = .holding time := by
  cases main <;> first | rfl | cases elsewhere

theorem MainThread.Elsewhere.agreements {main : MainThread n σ} (elsewhere : main.Elsewhere) :
    main.agreements mutexName = [] := by
  cases main <;> first | rfl | cases elsewhere

theorem MainThread.Elsewhere.deferred {main : MainThread n σ} (elsewhere : main.Elsewhere)
    (requests : PacketSet n) : main.deferred mutexName requests = requests := by
  cases main <;> first | rfl | cases elsewhere

theorem unawaiting (elsewhere : process.main.Elsewhere) (mutexName : MutexName)
    (time : LamportTime) : process.phase mutexName ≠ .awaiting time := by
  unfold Process.phase
  split
  next unqueued => exact nofun
  next own queued =>
    rw [elsewhere.phase]
    exact nofun

theorem elsewhere_afterLock (caller : Caller σ) :
    (caller.afterLock : MainThread n σ).Elsewhere := by
  cases caller <;> trivial

theorem elsewhere_afterUnlock (caller : Caller σ) :
    (caller.afterUnlock : MainThread n σ).Elsewhere := by
  cases caller <;> trivial

theorem unrelated_nil (source : ProcessId n) : Unrelated mutexName (inboxFrom source none) :=
  nofun

namespace MutexEffect

theorem still (ungranted : action = .acquired → ∀ time, process.phase mutexName ≠ .awaiting time)
    (unread : ∀ source, Unrelated mutexName (inboxFrom source consumed))
    (silent : ∀ recipient, Unrelated mutexName (addressed sent recipient))
    (clock : process.currentLamportTime ≤ process'.currentLamportTime)
    (queued : process'.queuedMutexes mutexName = process.queuedMutexes mutexName)
    (requests : process'.receivedRequests mutexName = process.receivedRequests mutexName)
    (phase : ∀ time, process'.main.phase mutexName time = process.main.phase mutexName time)
    (deferred : ∀ requests, process'.main.deferred mutexName requests =
      process.main.deferred mutexName requests)
    (agreements : process'.main.agreements mutexName = process.main.agreements mutexName) :
    MutexEffect self mutexName process action consumed process' sent :=
  .quiet ungranted unread silent clock (by simp only [Process.phase, queued, phase])
    (by simp only [Process.deferred, requests, deferred]) agreements

theorem unlock (own : process.Owning) {name : MutexName} {caller : Caller σ}
    (elsewhere : process.main.Elsewhere) :
    MutexEffect self mutexName process action none (process.unlock name caller) [] := by
  have ungranted : action = .acquired → ∀ time, process.phase mutexName ≠ .awaiting time :=
    fun _ => unawaiting elsewhere mutexName
  unfold Process.unlock
  split_ifs with holds
  · by_cases same : name = mutexName
    · subst same
      obtain ⟨time, queued⟩ := Option.isSome_iff_exists.1 (own.queued name holds)
      have before : process.phase name = .holding time := by
        rw [phase_queued queued, elsewhere.phase]
      refine .leaving before rfl ?_ ?_ ?_
      · simp only [Process.phase, queued, MainThread.phase, if_true]
      · exact (if_pos rfl).trans (elsewhere.deferred _).symm
      · rw [elsewhere.agreements]
        rfl
    · refine still ungranted unrelated_nil nofun le_rfl rfl rfl ?_ ?_ ?_
      · intro time
        rw [elsewhere.phase]
        exact if_neg same
      · exact fun requests => (if_neg same).trans (elsewhere.deferred requests).symm
      · rw [elsewhere.agreements]
        rfl
  · have away := elsewhere_afterUnlock (n := n) caller
    refine still ungranted unrelated_nil nofun le_rfl rfl rfl ?_ ?_ ?_
    · exact fun time => (away.phase time).trans (elsewhere.phase time).symm
    · exact fun requests => (away.deferred requests).trans (elsewhere.deferred requests).symm
    · exact away.agreements.trans elsewhere.agreements.symm

/-- A step between two positions that say nothing about any mutex. -/
theorem aside (silent : ∀ recipient, Unrelated mutexName (addressed sent recipient))
    (clock : process.currentLamportTime ≤ process'.currentLamportTime)
    (queued : process'.queuedMutexes = process.queuedMutexes)
    (requests : process'.receivedRequests = process.receivedRequests)
    (before : process.main.Elsewhere) (after : process'.main.Elsewhere) :
    MutexEffect self mutexName process action none process' sent :=
  still (fun _ => unawaiting before mutexName) unrelated_nil silent clock (by rw [queued]) (by rw [requests])
    (fun time => (after.phase time).trans (before.phase time).symm)
    (fun requests => (after.deferred requests).trans (before.deferred requests).symm)
    (after.agreements.trans before.agreements.symm)

theorem acquireMutex {name : MutexName} {caller : Caller σ} (before : process.main.Elsewhere) :
    MutexEffect self mutexName process action none (process.acquireMutex name caller) [] := by
  refine still (fun _ => unawaiting before mutexName) unrelated_nil nofun le_rfl rfl rfl
    (fun time => (before.phase time).symm) (fun requests => (before.deferred requests).symm) ?_
  rw [before.agreements]
  exact ite_self _

end MutexEffect

theorem mutexEffect_main (wf : process.WellFormed permanent) (own : process.Owning)
    (does : MainStep serialization self process action process' sent) :
    MutexEffect self mutexName process action none process' sent := by
  cases does with
  | configured called here | assign here =>
    exact .quiet (fun _ => unawaiting (by rw [here]; trivial) mutexName) unrelated_nil unsent_nil le_rfl
      rfl rfl rfl
  | lock here | wake here => exact .acquireMutex (by rw [here]; trivial)
  | unlock here | retry here | unlockMonitor here => exact .unlock own (by rw [here]; trivial)
  | wait here | leave here | stop here | subscribeConfirmations here | waitReturns here =>
    exact .aside unsent_nil le_rfl rfl rfl (by rw [here]; trivial) trivial
  | notify called here same picked =>
    rcases picked with rfl | ⟨recipients, rfl, -⟩
    · exact .quiet (fun _ => unawaiting (by rw [here]; trivial) mutexName) unrelated_nil unsent_nil
        le_rfl rfl rfl rfl
    · exact .aside unsent_nil le_rfl rfl rfl (by rw [here]; trivial) trivial
  | announce here | announceEnd here | sendNotify here | sendSync here =>
    exact .aside (fun recipient => unrelated_sent (.inl (by simp))) (Nat.le_succ _) rfl rfl
      (by rw [here]; trivial) trivial
  | @queue name id received caller here =>
    by_cases same : name = mutexName
    · subst same
      have kept : process.deferred name = process.receivedRequests name := by
        rw [Process.deferred, here]
        rfl
      refine .requested (by rw [here]; rfl) ?_ ?_ rfl ?_ kept.symm (by rw [here]; rfl)
      · cases queued : process.queuedMutexes name with
        | none => exact .inl (phase_idle queued)
        | some time => exact .inr ⟨time, by rw [phase_queued queued, here]; rfl⟩
      · intro unowned
        refine phase_idle (Option.not_isSome_iff_eq_none.1 fun queued => ?_)
        rcases own.owner name queued with owned | collects
        · rw [unowned] at owned
          cases owned
        · rw [here] at collects
          cases collects
      · simp only [Process.phase, Function.update_self, MainThread.phase, if_true]
    · refine .still (by simp) unrelated_nil (fun recipient => unrelated_sent (.inr same)) (Nat.le_succ _)
        (Function.update_of_ne (Ne.symm same) _ _) rfl ?_ (fun requests => by rw [here]; rfl)
        (by rw [here]; rfl)
      intro time
      rw [here]
      exact if_neg same
  | @acquired name id received caller here complete =>
    have away := elsewhere_afterLock (n := n) caller
    by_cases same : name = mutexName
    · subst same
      have main := own.main
      have coherent := wf.coherent
      rw [here] at main coherent
      obtain ⟨time, queued⟩ := Option.isSome_iff_exists.1 main
      have before : process.phase name = .awaiting time := by
        rw [phase_queued queued, here]
        exact if_pos rfl
      have kept : process.deferred name = process.receivedRequests name := by
        rw [Process.deferred, here]
        rfl
      refine .granted before coherent.1 ?_ complete rfl ?_ ((away.deferred _).trans kept.symm)
        away.agreements
      · rw [here]
        exact if_pos rfl
      · refine Eq.trans (phase_queued ?_) (away.phase time)
        exact queued
    · refine .still (fun _ time => ?_) unrelated_nil unsent_nil le_rfl rfl rfl (fun time => ?_)
        (fun requests => ?_) ?_
      · unfold Process.phase
        split
        next unqueued => simp
        next own queued =>
          simp [here, MainThread.phase, if_neg same]
      · rw [here]
        exact (away.phase time).trans (if_neg same).symm
      · rw [here]
        exact away.deferred requests
      · rw [here]
        exact away.agreements.trans (if_neg same).symm
  | @answerDeferred request name unanswered caller here waiting =>
    have coherent := wf.coherent
    rw [here] at coherent
    have about := coherent.1 request waiting
    by_cases same : name = mutexName
    · subst same
      have main := own.main
      rw [here] at main
      obtain ⟨time, queued⟩ := Option.isSome_iff_exists.1 (own.queued name main)
      have before : process.phase name = .releasing time := by
        rw [phase_queued queued, here]
        exact if_pos rfl
      have rest : process.deferred name = unanswered := by
        rw [Process.deferred, here]
        exact if_pos rfl
      have rest' : unanswered.remove request =
          (MainThread.releasing name (unanswered.remove request) caller).deferred name
            (process.receivedRequests name) := (if_pos rfl).symm
      rw [about.2]
      refine .answered before (rest ▸ List.mem_map_of_mem waiting) rfl ?_ (fun p => ?_) ?_
      · refine Eq.trans (phase_queued ?_) (if_pos rfl)
        exact queued
      · rw [rest, Process.deferred, ← rest']
        exact PacketSet.mem_remove_senders coherent.1 waiting
      · rw [here]
        rfl
    · exact .still (by simp) unrelated_nil (fun recipient => unrelated_sent (.inr (by rwa [about.2])))
        (Nat.le_succ _) rfl rfl (fun time => by rw [here]; rfl)
        (fun requests => by rw [here]; exact (if_neg same).trans (if_neg same).symm)
        (by rw [here]; rfl)
  | @released name unanswered caller here through =>
    have away := elsewhere_afterUnlock (n := n) caller
    by_cases same : name = mutexName
    · subst same
      have main := own.main
      rw [here] at main
      obtain ⟨time, queued⟩ := Option.isSome_iff_exists.1 (own.queued name main)
      have before : process.phase name = .releasing time := by
        rw [phase_queued queued, here]
        exact if_pos rfl
      have rest : process.deferred name = unanswered := by
        rw [Process.deferred, here]
        exact if_pos rfl
      refine .left before (by rw [rest, PacketSet.senders, through]; rfl) rfl ?_ ?_ ?_
      · exact phase_idle (Function.update_self ..)
      · simp only [Process.deferred, away.deferred, Function.update_self, PacketSet.senders_empty]
      · rw [here]
        exact away.agreements
    · refine .still (by simp) unrelated_nil unsent_nil le_rfl (Function.update_of_ne (Ne.symm same) _ _)
        (Function.update_of_ne (Ne.symm same) _ _) (fun time => ?_) (fun requests => ?_) ?_
      · rw [here]
        exact (away.phase time).trans (if_neg same).symm
      · rw [here]
        exact (away.deferred requests).trans (if_neg same).symm
      · rw [here]
        exact away.agreements

theorem phase_signal (main : MainThread n σ) (condName : CondName) (time : LamportTime) :
    (main.signal condName).phase mutexName time = main.phase mutexName time :=
  read_signal (fun main => main.phase mutexName time) (fun _ _ _ => rfl) main condName

theorem deferred_signal (main : MainThread n σ) (condName : CondName) (requests : PacketSet n) :
    (main.signal condName).deferred mutexName requests = main.deferred mutexName requests :=
  read_signal (fun main => main.deferred mutexName requests) (fun _ _ _ => rfl) main condName

theorem agreements_signal (main : MainThread n σ) (condName : CondName) :
    (main.signal condName).agreements mutexName = main.agreements mutexName :=
  read_signal (fun main => main.agreements mutexName) (fun _ _ _ => rfl) main condName

theorem phase_confirm (main : MainThread n σ) (condName : CondName) (time : LamportTime) :
    (main.confirm condName packet).phase mutexName time = main.phase mutexName time :=
  read_confirm (fun main => main.phase mutexName time) (fun _ _ _ _ => rfl) (fun _ _ _ _ => rfl)
    main condName

theorem deferred_confirm (main : MainThread n σ) (condName : CondName) (requests : PacketSet n) :
    (main.confirm condName packet).deferred mutexName requests = main.deferred mutexName requests :=
  read_confirm (fun main => main.deferred mutexName requests) (fun _ _ _ _ => rfl)
    (fun _ _ _ _ => rfl) main condName

theorem agreements_confirm (main : MainThread n σ) (condName : CondName) :
    (main.confirm condName packet).agreements mutexName = main.agreements mutexName :=
  read_confirm (fun main => main.agreements mutexName) (fun _ _ _ _ => rfl) (fun _ _ _ _ => rfl)
    main condName

theorem not_releasing (type : packet.messageType = .mutexRequest)
    (free : process.mustWait packet = false) (time : LamportTime) :
    process.phase mutexName ≠ .releasing time := by
  intro releasing
  unfold Process.phase at releasing
  split at releasing
  next none' => cases releasing
  next own queued =>
    cases main : process.main with
    | releasing name unanswered caller => simp [Process.mustWait, main, type] at free
    | collecting name id received caller =>
      rw [main] at releasing
      simp only [MainThread.phase] at releasing
      split_ifs at releasing
    | _ =>
      rw [main] at releasing
      cases releasing

theorem deferred_free (type : packet.messageType = .mutexRequest)
    (free : process.mustWait packet = false) (requests : PacketSet n) :
    process.main.deferred mutexName requests = requests := by
  cases main : process.main with
  | releasing name unanswered caller => simp [Process.mustWait, main, type] at free
  | _ => rfl

theorem mutexEffect_dispatched (free : process.mustWait packet = false)
    (does : Dispatched self packet monitors process process' sent) :
    MutexEffect self mutexName process .dispatch (some packet) process' sent := by
  have apart : (packet.messageType ≠ .mutexRequest ∧ packet.messageType ≠ .mutexAgreement) ∨
      packet.message ≠ mutexName → ∀ source, Unrelated mutexName (inboxFrom source (some packet)) :=
    fun other source => unrelated_inbox other
  cases does with
  | agreed type registered allowed =>
    by_cases same : packet.message = mutexName
    · subst same
      exact .agreed (RawPacket.carries_iff.2 ⟨type, rfl⟩) allowed rfl rfl rfl rfl
    · exact .quiet nofun (apart (.inr same)) (fun recipient => unrelated_sent (.inr same))
        (Nat.le_succ _) rfl rfl rfl
  | deferred type registered refused =>
    by_cases same : packet.message = mutexName
    · subst same
      refine .deferred (RawPacket.carries_iff.2 ⟨type, rfl⟩) refused
        (fun time => not_releasing type free time) rfl rfl (fun p => ?_) rfl
      simp only [Process.deferred, deferred_free type free, Function.update_self]
      exact PacketSet.mem_insert_senders
    · refine .still nofun (apart (.inr same)) nofun le_rfl rfl ?_ (fun _ => rfl) (fun _ => rfl) rfl
      exact Function.update_of_ne (Ne.symm same) _ _
  | early type here queued | counted type here queued =>
    by_cases same : packet.message = mutexName
    · subst same
      refine .counted (RawPacket.carries_iff.2 ⟨type, rfl⟩) rfl ?_ ?_ (fun q => ?_)
      · simp only [Process.phase, here]
        rfl
      · simp only [Process.deferred, here]
        rfl
      · simp only [here, MainThread.agreements, if_true]
        exact PacketSet.mem_insert_senders
    · refine .still nofun (apart (.inr same)) nofun le_rfl rfl rfl (fun time => ?_)
        (fun requests => ?_) ?_
      · rw [here]
        rfl
      · rw [here]
        rfl
      · rw [here]
        exact (if_neg same).trans (if_neg same).symm
  | waiting type | synced type =>
    exact .quiet nofun (apart (.inl (by simp [type]))) nofun le_rfl rfl rfl rfl
  | ended type =>
    exact .quiet nofun (apart (.inl (by simp [type])))
      (fun recipient => unrelated_sent (.inl (by simp))) (Nat.le_succ _) rfl rfl rfl
  | notified type =>
    exact .still nofun (apart (.inl (by simp [type]))) nofun le_rfl rfl rfl
      (fun time => phase_signal _ _ time) (fun requests => deferred_signal _ _ requests)
      (agreements_signal _ _)
  | confirmed type =>
    exact .still nofun (apart (.inl (by simp [type]))) nofun le_rfl rfl rfl
      (fun time => phase_confirm _ _ time) (fun requests => deferred_confirm _ _ requests)
      (agreements_confirm _ _)

theorem mutexEffect (wf : process.WellFormed permanent) (own : process.Owning)
    (does : ThreadStep serialization self monitors process action consumed process' sent) :
    MutexEffect self mutexName process action consumed process' sent := by
  cases does with
  | main does => exact mutexEffect_main wf own does
  | dispatch received free dispatches does => exact mutexEffect_dispatched free does

end DistributedMonitor
