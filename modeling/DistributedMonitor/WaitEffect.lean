import DistributedMonitor.Library.Registration
import DistributedMonitor.Conservation

/-! What a step means for one condition variable: nearly all are quiet, and the others
are the steps of a registration. -/

namespace DistributedMonitor
open Library Registration

variable {n : ℕ} {σ : Type} {serialization : Serialization σ} {self : ProcessId n}
  {monitors : List MonitorName} {permanent : List (SubscriptionId × Subscription)}
  {packet : Packet n} {process process' : Process n σ} {action : Action n σ}
  {consumed : Option (Packet n)} {sent : List (Envelope n)} {condName : CondName}

def RawPacket.signal (condName : CondName) (raw : RawPacket) : Option Signal :=
  if raw.message = condName then
    match raw.messageType with
    | .condWait => some .announce
    | .condWaitEnd => some .withdraw
    | _ => none
  else none

def RawPacket.answer (condName : CondName) (raw : RawPacket) : Option Answer :=
  if raw.message = condName then
    match raw.messageType with
    | .condNotify => some .notice
    | .condWaitEndConfirm => some .acknowledge
    | _ => none
  else none

/-- Between the broadcasts of `wait` a process is inside, then it waits for confirmations. -/
def MainThread.stage (condName : CondName) : MainThread n σ → Stage
  | .announcing _ => .outside
  | .confirming call _ _ => if call.condName = condName then .closing else .outside
  | main => if main.waitCall.any (·.condName = condName) then .inside else .outside

def MainThread.confirmations (condName : CondName) : MainThread n σ → List (ProcessId n)
  | .ending call _ received | .confirming call _ received =>
      if call.condName = condName then received.senders else []
  | _ => []

def MainThread.recipients (condName : CondName) : MainThread n σ → Finset (ProcessId n)
  | .notifying name recipients => if name = condName then recipients else ∅
  | _ => ∅

def RawPacket.Apart (condName : CondName) (raw : RawPacket) : Prop :=
  raw.signal condName = none ∧ raw.answer condName = none

structure MainThread.Alike (condName : CondName) (main main' : MainThread n σ) : Prop where
  stage : main'.stage condName = main.stage condName
  confirmations : main'.confirmations condName = main.confirmations condName
  recipients : main'.recipients condName = main.recipients condName

theorem signal_none {raw : RawPacket} {messageType : MessageType}
    (type : raw.messageType = messageType) (wait : messageType ≠ .condWait)
    (waitEnd : messageType ≠ .condWaitEnd) : raw.signal condName = none := by
  unfold RawPacket.signal
  rw [type]
  cases messageType <;> simp_all

theorem answer_none {raw : RawPacket} {messageType : MessageType}
    (type : raw.messageType = messageType) (notify : messageType ≠ .condNotify)
    (confirm : messageType ≠ .condWaitEndConfirm) : raw.answer condName = none := by
  unfold RawPacket.answer
  rw [type]
  cases messageType <;> simp_all

theorem answer_of_signal {raw : RawPacket} {signal : Signal}
    (shows : raw.signal condName = some signal) : raw.answer condName = none := by
  unfold RawPacket.signal at shows
  unfold RawPacket.answer
  cases type : raw.messageType <;> simp_all

theorem signal_of_answer {raw : RawPacket} {answer : Answer}
    (shows : raw.answer condName = some answer) : raw.signal condName = none := by
  cases signals : raw.signal condName with
  | none => rfl
  | some signal =>
    rw [answer_of_signal signals] at shows
    cases shows

theorem apart_of_type {raw : RawPacket} {messageType : MessageType}
    (type : raw.messageType = messageType) (wait : messageType ≠ .condWait)
    (waitEnd : messageType ≠ .condWaitEnd) (notify : messageType ≠ .condNotify)
    (confirm : messageType ≠ .condWaitEndConfirm) : raw.Apart condName :=
  ⟨signal_none type wait waitEnd, answer_none type notify confirm⟩

theorem apart_of_name {raw : RawPacket} (other : raw.message ≠ condName) : raw.Apart condName :=
  ⟨if_neg other, if_neg other⟩

inductive WaitEffect (self : ProcessId n) (condName : CondName) (process : Process n σ) :
    Option (Packet n) → Process n σ → List (Envelope n) → Prop where
  | quiet {consumed : Option (Packet n)} {process' : Process n σ} {sent : List (Envelope n)}
      (unread : ∀ packet, consumed = some packet → packet.raw.Apart condName)
      (silent : ∀ envelope ∈ sent, envelope.packet.raw.Apart condName)
      (main : process.main.Alike condName process'.main)
      (waits : process'.waits condName = process.waits condName) :
      WaitEffect self condName process consumed process' sent
  | announced {process' : Process n σ} {lamportTime : LamportTime}
      (before : process.main.stage condName = .outside)
      (after : process'.main.stage condName = .inside)
      (confirmations : process'.main.confirmations condName = process.main.confirmations condName)
      (recipients : process'.main.recipients condName = process.main.recipients condName)
      (waits : process'.waits condName = process.waits condName) :
      WaitEffect self condName process none process'
        [⟨⟨lamportTime, self, .condWait, condName⟩, otherProcesses self⟩]
  | withdrew {process' : Process n σ} {lamportTime : LamportTime}
      (before : process.main.stage condName = .inside)
      (after : process'.main.stage condName = .closing)
      (confirmations : process'.main.confirmations condName = process.main.confirmations condName)
      (recipients : process'.main.recipients condName = process.main.recipients condName)
      (waits : process'.waits condName = process.waits condName) :
      WaitEffect self condName process none process'
        [⟨⟨lamportTime, self, .condWaitEnd, condName⟩, otherProcesses self⟩]
  | finished {process' : Process n σ} {received : PacketSet n}
      (before : process.main.stage condName = .closing)
      (after : process'.main.stage condName = .outside)
      (about : received.About .condWaitEndConfirm condName) (complete : received.size = n - 1)
      (collected : process.main.confirmations condName = received.senders)
      (confirmations : process'.main.confirmations condName = [])
      (recipients : process'.main.recipients condName = process.main.recipients condName)
      (waits : process'.waits condName = process.waits condName) :
      WaitEffect self condName process none process' []
  | heard {process' : Process n σ} {packet : Packet n}
      (read : packet.raw.signal condName = some .announce)
      (main : process.main.Alike condName process'.main)
      (listed : ∀ p ∈ (process'.waits condName).senders,
        p = packet.source ∨ p ∈ (process.waits condName).senders)
      (kept : ∀ p ∈ (process.waits condName).senders, p ∈ (process'.waits condName).senders) :
      WaitEffect self condName process (some packet) process' []
  | forgot {process' : Process n σ} {packet : Packet n} {lamportTime : LamportTime}
      (read : packet.raw.signal condName = some .withdraw)
      (main : process.main.Alike condName process'.main)
      (waits : process'.waits condName = .empty) :
      WaitEffect self condName process (some packet) process'
        [⟨⟨lamportTime, self, .condWaitEndConfirm, condName⟩, {packet.source}⟩]
  | picked {process' : Process n σ}
      (stage : process'.main.stage condName = process.main.stage condName)
      (confirmations : process'.main.confirmations condName = process.main.confirmations condName)
      (known : ∀ p ∈ process'.main.recipients condName, p ∈ (process.waits condName).senders)
      (waits : process'.waits condName = process.waits condName) :
      WaitEffect self condName process none process' []
  | notified {process' : Process n σ} {lamportTime : LamportTime}
      (stage : process'.main.stage condName = process.main.stage condName)
      (confirmations : process'.main.confirmations condName = process.main.confirmations condName)
      (after : process'.main.recipients condName = ∅)
      (waits : process'.waits condName = process.waits condName) :
      WaitEffect self condName process none process'
        [⟨⟨lamportTime, self, .condNotify, condName⟩, process.main.recipients condName⟩]
  | signalled {process' : Process n σ} {packet : Packet n}
      (read : packet.raw.answer condName = some .notice)
      (main : process.main.Alike condName process'.main)
      (waits : process'.waits condName = process.waits condName) :
      WaitEffect self condName process (some packet) process' []
  | confirmed {process' : Process n σ} {packet : Packet n}
      (read : packet.raw.answer condName = some .acknowledge)
      (stage : process'.main.stage condName = process.main.stage condName)
      (confirmations : ∀ q, q ∈ process'.main.confirmations condName ↔
        q ∈ process.main.confirmations condName ∨ q = packet.source)
      (recipients : process'.main.recipients condName = process.main.recipients condName)
      (waits : process'.waits condName = process.waits condName) :
      WaitEffect self condName process (some packet) process' []

theorem waitEffect_unlock {name : MutexName} {caller : Caller σ}
    (releasing : ∀ unanswered, process.main.Alike condName (.releasing name unanswered caller))
    (unlocked : process.main.Alike condName caller.afterUnlock) :
    WaitEffect self condName process none (process.unlock name caller) [] := by
  unfold Process.unlock
  split_ifs
  · exact .quiet nofun nofun (releasing _) rfl
  · exact .quiet nofun nofun unlocked rfl

theorem apart_sent {recipients : Finset (ProcessId n)}
    (apart : packet.raw.Apart condName) :
    ∀ envelope ∈ [(⟨packet, recipients⟩ : Envelope n)], envelope.packet.raw.Apart condName := by
  intro envelope member
  rw [List.mem_singleton.1 member]
  exact apart

theorem waitEffect_main (coherent : process.main.Coherent)
    (does : MainStep serialization self process action process' sent) :
    WaitEffect self condName process none process' sent := by
  cases does with
  | configured called here | assign here => exact .quiet nofun nofun ⟨rfl, rfl, rfl⟩ rfl
  | lock here | wake here | wait here | leave here | stop here =>
    exact .quiet nofun nofun (by rw [here]; exact ⟨rfl, rfl, rfl⟩) rfl
  | unlock here | unlockMonitor here | retry here =>
    exact waitEffect_unlock (fun _ => by rw [here]; exact ⟨rfl, rfl, rfl⟩)
      (by rw [here]; exact ⟨rfl, rfl, rfl⟩)
  | @notify action name table main' called here same picked =>
    have waits : ({ process with conditionalWaits := table, main := main' } :
        Process n σ).waits condName = process.waits condName := same condName
    rcases picked with rfl | ⟨recipients, rfl, known⟩
    · exact .quiet nofun nofun ⟨rfl, rfl, rfl⟩ waits
    · refine .picked (by rw [here]; rfl) (by rw [here]; rfl) (fun p member => ?_) waits
      simp only [MainThread.recipients] at member
      split_ifs at member with named
      · exact named ▸ known p member
      · cases member
  | queue here | sendSync here | answerDeferred here =>
    exact .quiet nofun (apart_sent (apart_of_type rfl nofun nofun nofun nofun))
      (by rw [here]; exact ⟨rfl, rfl, rfl⟩) rfl
  | @acquired name id received caller here | @released name unanswered caller here =>
    exact .quiet nofun nofun (by rw [here]; cases caller <;> exact ⟨rfl, rfl, rfl⟩) rfl
  | @announce call here =>
    by_cases named : call.condName = condName
    · subst named
      exact .announced (by rw [here]; rfl) (by simp [MainThread.stage, MainThread.waitCall])
        (by rw [here]; rfl) (by rw [here]; rfl) rfl
    · refine .quiet nofun (apart_sent (apart_of_name named)) ?_ rfl
      rw [here]
      exact ⟨by simp [MainThread.stage, MainThread.waitCall, named], rfl, rfl⟩
  | subscribeConfirmations here =>
    refine .quiet nofun nofun ?_ rfl
    rw [here]
    exact ⟨rfl, ite_self _, rfl⟩
  | @announceEnd call id received here =>
    by_cases named : call.condName = condName
    · subst named
      exact .withdrew (by rw [here]; simp [MainThread.stage, MainThread.waitCall])
        (by simp [MainThread.stage]) (by rw [here]; rfl) (by rw [here]; rfl) rfl
    · refine .quiet nofun (apart_sent (apart_of_name named)) ?_ rfl
      rw [here]
      exact ⟨by simp [MainThread.stage, MainThread.waitCall, named], rfl, rfl⟩
  | @waitReturns call id received here complete =>
    rw [here] at coherent
    by_cases named : call.condName = condName
    · subst named
      exact .finished (by rw [here]; simp [MainThread.stage]) rfl coherent complete
        (by rw [here]; exact if_pos rfl) rfl (by rw [here]; rfl) rfl
    · refine .quiet nofun nofun ?_ rfl
      rw [here]
      exact ⟨by simp [MainThread.stage, MainThread.waitCall, named], (if_neg named).symm, rfl⟩
  | @sendNotify name recipients here =>
    by_cases named : name = condName
    · subst named
      have before : process.main.recipients name = recipients := by
        rw [here]
        exact if_pos rfl
      rw [← before]
      exact .notified (by rw [here]; rfl) (by rw [here]; rfl) rfl rfl
    · refine .quiet nofun (apart_sent (apart_of_name named)) ?_ rfl
      rw [here]
      exact ⟨rfl, rfl, (if_neg named).symm⟩

theorem alike_signal (main : MainThread n σ) (name : CondName) :
    main.Alike condName (main.signal name) where
  stage := read_signal (·.stage condName) (fun _ _ _ => rfl) main name
  confirmations := read_signal (·.confirmations condName) (fun _ _ _ => rfl) main name
  recipients := read_signal (·.recipients condName) (fun _ _ _ => rfl) main name

theorem confirmations_confirm {call : WaitCall σ} (ends : process.main.endingCall = some call)
    (named : call.condName = condName) (q : ProcessId n) :
    q ∈ (process.main.confirm condName packet).confirmations condName ↔
      q ∈ process.main.confirmations condName ∨ q = packet.source := by
  cases main : process.main with
  | ending _ id received | confirming _ id received =>
    rw [main] at ends
    cases ends
    simp only [MainThread.confirm, MainThread.confirmations, if_pos named]
    exact PacketSet.mem_insert_senders
  | _ =>
    rw [main] at ends
    cases ends

theorem confirmations_elsewhere {call : WaitCall σ} {name : CondName}
    (ends : process.main.endingCall = some call) (other : call.condName ≠ condName) :
    (process.main.confirm name packet).confirmations condName =
      process.main.confirmations condName := by
  cases main : process.main with
  | ending _ id received | confirming _ id received =>
    rw [main] at ends
    cases ends
    simp only [MainThread.confirm]
    split_ifs <;> exact (if_neg other).trans (if_neg other).symm
  | _ => rfl

theorem waitEffect_dispatched (does : Dispatched self packet monitors process process' sent) :
    WaitEffect self condName process (some packet) process' sent := by
  have unread : packet.raw.Apart condName → ∀ other, some packet = some other →
      other.raw.Apart condName := fun apart other same => Option.some.inj same ▸ apart
  have silent : (∀ envelope ∈ ([] : List (Envelope n)), envelope.packet.raw.Apart condName) := nofun
  cases does with
  | agreed type =>
    exact .quiet (unread (apart_of_type type nofun nofun nofun nofun))
      (apart_sent (apart_of_type rfl nofun nofun nofun nofun)) ⟨rfl, rfl, rfl⟩ rfl
  | deferred type | synced type =>
    exact .quiet (unread (apart_of_type type nofun nofun nofun nofun)) silent ⟨rfl, rfl, rfl⟩ rfl
  | early type here | counted type here =>
    exact .quiet (unread (apart_of_type type nofun nofun nofun nofun)) silent
      (by rw [here]; exact ⟨rfl, rfl, rfl⟩) rfl
  | waiting type =>
    by_cases named : packet.message = condName
    · subst named
      have read : packet.raw.signal packet.message = some .announce := by
        simp [RawPacket.signal, Packet.raw, type]
      have waits : ({ process.recordWait packet with receiving := .listening } :
          Process n σ).waits packet.message = (process.waits packet.message).insert packet := by
        simp only [Process.waits, Process.recordWait, AList.lookup_insert, Option.getD_some]
      refine .heard read ⟨rfl, rfl, rfl⟩ ?_ ?_ <;> rw [waits]
      · exact fun p listed => StampedSet.mem_insert_senders listed
      · exact fun p listed => StampedSet.mem_insert_of_mem packet listed
    · refine .quiet (unread (apart_of_name named)) silent ⟨rfl, rfl, rfl⟩ ?_
      simp only [Process.waits, Process.recordWait, AList.lookup_insert_ne (Ne.symm named)]
  | ended type =>
    by_cases named : packet.message = condName
    · subst named
      have read : packet.raw.signal packet.message = some .withdraw := by
        simp [RawPacket.signal, Packet.raw, type]
      refine .forgot read ⟨rfl, rfl, rfl⟩ ?_
      simp only [Process.waits, AList.lookup_erase, Option.getD_none]
    · refine .quiet (unread (apart_of_name named)) (apart_sent (apart_of_name named))
        ⟨rfl, rfl, rfl⟩ ?_
      simp only [Process.waits, AList.lookup_erase_ne (Ne.symm named)]
  | notified type =>
    by_cases named : packet.message = condName
    · subst named
      have read : packet.raw.answer packet.message = some .notice := by
        simp [RawPacket.answer, Packet.raw, type]
      exact .signalled read (alike_signal _ _) rfl
    · exact .quiet (unread (apart_of_name named)) silent (alike_signal _ _) rfl
  | @confirmed call type ends named =>
    have stage : (process.main.confirm packet.message packet).stage condName =
        process.main.stage condName :=
      read_confirm (·.stage condName) (fun _ _ _ _ => rfl) (fun _ _ _ _ => rfl) _ _
    have recipients : (process.main.confirm packet.message packet).recipients condName =
        process.main.recipients condName :=
      read_confirm (·.recipients condName) (fun _ _ _ _ => rfl) (fun _ _ _ _ => rfl) _ _
    by_cases same : packet.message = condName
    · subst same
      have read : packet.raw.answer packet.message = some .acknowledge := by
        simp [RawPacket.answer, Packet.raw, type]
      exact .confirmed read stage (confirmations_confirm ends named.symm) recipients rfl
    · refine .quiet (unread (apart_of_name same)) silent ⟨stage, ?_, recipients⟩ rfl
      exact confirmations_elsewhere ends (named ▸ same)

theorem waitEffect (wf : process.WellFormed permanent)
    (does : ThreadStep serialization self monitors process action consumed process' sent) :
    WaitEffect self condName process consumed process' sent := by
  cases does with
  | main does => exact waitEffect_main wf.coherent does
  | dispatch received free dispatches does => exact waitEffect_dispatched does

end DistributedMonitor
