import Mathlib.Algebra.BigOperators.Ring.Finset
import Mathlib.Algebra.Order.BigOperators.Group.Finset
import Mathlib.Algebra.Group.Action.Defs
import DistributedMonitor.MutexEffect

/-! How much the system still does by itself when the programs call nothing more: every packet
is charged with all that it can set off, and every step takes something off the account. -/

namespace DistributedMonitor
open Library

variable {n : ℕ} {σ : Type} {communicator : Communicator} {serialization : Serialization σ}
  {setup : Setup n σ} {contract : Permission (System n σ) (Event n σ)}
  {trace : Trace (System n σ) (Event n σ)} {s s' : System n σ} {e : Event n σ}
  {self : ProcessId n} {monitors : List MonitorName} {process process' : Process n σ}
  {action : Action n σ} {consumed : Option (Packet n)} {sent : List (Envelope n)}
  {packet : Packet n} {names : Finset MutexName}

/-- Everything but the calls of a program and the wake-ups that nobody has signalled. -/
def carriesOn (s : System n σ) (e : Event n σ) : Bool :=
  match e.2, (s.process e.1).main with
  | .receive _, _ | .updateTimestamp, _ | .dispatch, _ | .queue, _ | .acquired, _
  | .answerDeferred _, _ | .released, _ | .announce, _ | .evaluate, _
  | .subscribeConfirmations, _ | .announceEnd, _ | .waitReturns, _ | .sendNotify, _
  | .sendSync, _ | .unlockMonitor, _ => true
  | .wake, .blocked _ signalled => signalled
  | _, _ => false

def checkWork (n : ℕ) : ℕ := 4 + (n - 1) * 6

def wakeWork (n : ℕ) : ℕ := 3 + (n - 1) * 7 + checkWork n

/-- A packet is received, its stamp rewritten, and dispatched; a request may be deferred before
it is answered. -/
def MessageType.work (n : ℕ) : MessageType → ℕ
  | .mutexRequest => 7
  | .condWaitEnd => 6
  | .condNotify => 3 + wakeWork n
  | .mutexAgreement | .condWait | .condWaitEndConfirm | .sync => 3

def Caller.lockWork (n : ℕ) : Caller σ → ℕ
  | .program => 0
  | .wait _ => checkWork n

def MainThread.work : MainThread n σ → ℕ
  | .running => 0
  | .queueing _ _ _ caller => 2 + (n - 1) * 7 + caller.lockWork n
  | .collecting _ _ _ caller => 1 + caller.lockWork n
  | .releasing _ _ _ => 1
  | .announcing _ => 1 + (n - 1) * 3 + checkWork n
  | .checking _ => checkWork n
  | .blocked _ signalled => if signalled then wakeWork n else 0
  | .stopped _ => 3 + (n - 1) * 6
  | .ending _ _ _ => 2 + (n - 1) * 6
  | .confirming _ _ _ => 1
  | .notifying _ recipients => 1 + recipients.card * (3 + wakeWork n)
  | .saved _ _ => 3 + (n - 1) * 3
  | .synced _ => 2

def ReceivingThread.work : ReceivingThread n → ℕ
  | .listening => 0
  | .updating packet => packet.messageType.work n - 1
  | .received packet => packet.messageType.work n - 2

def Process.deferredWork (names : Finset MutexName) (process : Process n σ) : ℕ :=
  4 * ∑ name ∈ names, (process.deferred name).size

def Process.work (names : Finset MutexName) (process : Process n σ) : ℕ :=
  process.main.work + process.receiving.work + process.deferredWork names

def channelWork (n : ℕ) (raws : List RawPacket) : ℕ := (raws.map (·.messageType.work n)).sum

def sentWork (sent : List (Envelope n)) : ℕ :=
  (sent.map fun envelope =>
    envelope.recipients.card * envelope.packet.messageType.work n).sum

def System.work (names : Finset MutexName) (s : System n σ) : ℕ :=
  ∑ p, (s.process p).work names + ∑ p, ∑ q, channelWork n (s.channel p q)

structure Process.Covered (names : Finset MutexName) (process : Process n σ) : Prop where
  registered : process.registeredMutexes ⊆ names
  deferred : ∀ name, (process.deferred name).size ≠ 0 → name ∈ names

theorem channelWork_append (first second : List RawPacket) :
    channelWork n (first ++ second) = channelWork n first + channelWork n second := by
  rw [channelWork, List.map_append, List.sum_append]
  rfl

theorem sum_addressed (sent : List (Envelope n)) :
    ∑ q, channelWork n (addressed sent q) = sentWork sent := by
  induction sent with
  | nil => simp [addressed, channelWork, sentWork]
  | cons envelope rest ih =>
    have split : ∀ q, channelWork n (addressed (envelope :: rest) q) =
        (if q ∈ envelope.recipients then envelope.packet.messageType.work n else 0) +
          channelWork n (addressed rest q) := by
      intro q
      by_cases listed : q ∈ envelope.recipients
      · simp [addressed, channelWork, listed, Packet.raw]
      · simp [addressed, listed]
    rw [Finset.sum_congr rfl fun q _ => split q, Finset.sum_add_distrib, ih, Finset.sum_ite_mem,
      Finset.univ_inter, Finset.sum_const, smul_eq_mul]
    rfl

theorem work_process (names : Finset MutexName) (s : System n σ) (self : ProcessId n) (process' : Process n σ) :
    ∑ p, (Function.update s.process self process' p).work names + (s.process self).work names =
      ∑ p, (s.process p).work names + process'.work names := by
  have changed := Finset.sum_update_of_mem (Finset.mem_univ self)
    (fun p => (s.process p).work names) (process'.work names)
  have same : ∀ p, (Function.update s.process self process' p).work names =
      Function.update (fun p => (s.process p).work names) self (process'.work names) p := by
    intro p
    by_cases mine : p = self
    · subst mine
      rw [Function.update_self, Function.update_self]
    · rw [Function.update_of_ne mine, Function.update_of_ne mine]
  rw [Finset.sum_congr rfl fun p _ => same p, changed,
    ← Finset.add_sum_erase Finset.univ _ (Finset.mem_univ self), Finset.sdiff_singleton_eq_erase]
  omega

theorem work_update (names : Finset MutexName) (s : System n σ) (self : ProcessId n)
    (process' : Process n σ) (sent : List (Envelope n)) :
    (s.update self (process', sent)).work names + (s.process self).work names =
      s.work names + process'.work names + sentWork sent := by
  have channels : ∑ p, ∑ q, channelWork n ((s.update self (process', sent)).channel p q) =
      ∑ p, ∑ q, channelWork n (s.channel p q) + sentWork sent := by
    have split : ∀ p, ∑ q, channelWork n ((s.update self (process', sent)).channel p q) =
        ∑ q, channelWork n (s.channel p q) + if p = self then sentWork sent else 0 := by
      intro p
      by_cases mine : p = self
      · subst mine
        simp only [System.update, if_true, channelWork_append, Finset.sum_add_distrib,
          sum_addressed]
      · simp only [System.update, mine, if_false, Nat.add_zero]
    rw [Finset.sum_congr rfl fun p _ => split p, Finset.sum_add_distrib,
      Finset.sum_ite_eq' Finset.univ self, if_pos (Finset.mem_univ self)]
  have processes := work_process names s self process'
  unfold System.work
  rw [channels]
  change ∑ p, (Function.update s.process self process' p).work names + _ + _ = _
  omega

theorem deferredWork_le
    (fewer : ∀ name, (process'.deferred name).size ≤ (process.deferred name).size) :
    process'.deferredWork names ≤ process.deferredWork names :=
  Nat.mul_le_mul_left 4 (Finset.sum_le_sum fun name _ => fewer name)

theorem deferredWork_lt
    (fewer : ∀ name, (process'.deferred name).size ≤ (process.deferred name).size)
    {name : MutexName} (listed : name ∈ names)
    (less : (process'.deferred name).size < (process.deferred name).size) :
    process'.deferredWork names + 4 ≤ process.deferredWork names := by
  have sums := Finset.sum_lt_sum (fun name _ => fewer name) ⟨name, listed, less⟩
  unfold Process.deferredWork
  omega

theorem deferredWork_insert {name : MutexName} (more : ∀ other, (process'.deferred other).size ≤
      (process.deferred other).size + if other = name then 1 else 0) :
    process'.deferredWork names ≤ process.deferredWork names + 4 := by
  have sums := Finset.sum_le_sum (s := names) fun other _ => more other
  rw [Finset.sum_add_distrib, Finset.sum_ite_eq'] at sums
  unfold Process.deferredWork
  split_ifs at sums <;> omega

theorem size_insert_le (set : PacketSet n) (packet : Packet n) :
    (set.insert packet).size ≤ set.size + 1 := by
  unfold PacketSet.insert PacketSet.size
  split
  · rw [List.length_append, List.length_singleton]
  · exact Nat.le_succ _

theorem size_remove_lt {set : PacketSet n} {packet : Packet n} (member : packet ∈ set.packets) :
    (set.remove packet).size < set.size := by
  refine List.length_filter_lt_length_iff_exists.2 ⟨packet, member, ?_⟩
  simp [Packet.same]

theorem work_afterUnlock (caller : Caller σ) : (caller.afterUnlock : MainThread n σ).work = 0 := by
  cases caller <;> rfl

theorem work_afterLock (caller : Caller σ) :
    (caller.afterLock : MainThread n σ).work = caller.lockWork n := by
  cases caller <;> rfl

theorem work_signal_le (main : MainThread n σ) (condName : CondName) :
    (main.signal condName).work ≤ main.work + wakeWork n := by
  cases main with
  | blocked call signalled =>
    simp only [MainThread.signal, MainThread.work]
    split_ifs <;> omega
  | _ => exact Nat.le_add_right _ _

theorem work_confirm (main : MainThread n σ) (condName : CondName) (packet : Packet n) :
    (main.confirm condName packet).work = main.work :=
  read_confirm MainThread.work (fun _ _ _ _ => rfl) (fun _ _ _ _ => rfl) main condName

theorem deferred_unlock (unlocking : process.main.Elsewhere) (name : MutexName) (caller : Caller σ)
    (other : MutexName) : (process.unlock name caller).deferred other = process.deferred other := by
  unfold Process.unlock Process.deferred
  rw [unlocking.deferred]
  split_ifs
  · simp only [MainThread.deferred]
    split_ifs with same
    · rw [same]
    · rfl
  · exact (elsewhere_afterUnlock caller).deferred _

theorem mainStep_deferred
    (does : MainStep serialization self process action process' sent) (name : MutexName) :
    (process'.deferred name).size ≤ (process.deferred name).size := by
  cases does with
  | @answerDeferred request mutexName unanswered caller main waiting =>
    simp only [Process.deferred, main, MainThread.deferred]
    split_ifs
    · exact (size_remove_lt waiting).le
    · exact le_rfl
  | @released mutexName unanswered caller main =>
    simp only [Process.deferred, main, (elsewhere_afterUnlock caller).deferred]
    by_cases same : name = mutexName
    · rw [same, Function.update_self]
      exact Nat.zero_le _
    · rw [Function.update_of_ne same, MainThread.deferred, if_neg (Ne.symm same)]
  | unlock main | retry main | unlockMonitor main =>
    rw [deferred_unlock (by rw [main]; trivial)]
  | @acquired mutexName id received caller main =>
    simp only [Process.deferred, main, (elsewhere_afterLock caller).deferred]
    exact le_rfl
  | notify called main same picked =>
    rcases picked with rfl | ⟨recipients, rfl, -⟩ <;> simp only [Process.deferred, main] <;>
      exact le_rfl
  | configured _ main | assign main | lock main | wait main | leave main | queue main
  | announce main | stop main | wake main | subscribeConfirmations main | announceEnd main
  | waitReturns main | sendNotify main | sendSync main =>
    simp only [Process.deferred, main]
    exact le_rfl

theorem dispatched_deferred (free : process.mustWait packet = false)
    (does : Dispatched self packet monitors process process' sent) :
    (∀ name, (process'.deferred name).size ≤ (process.deferred name).size) ∨
      (packet.messageType = .mutexRequest ∧ sent = []) ∧
        packet.message ∈ process.registeredMutexes ∧ ∀ other, (process'.deferred other).size ≤
          (process.deferred other).size + if other = packet.message then 1 else 0 := by
  cases does with
  | deferred type registered =>
    refine .inr ⟨⟨type, rfl⟩, registered, fun other => ?_⟩
    simp only [Process.deferred, deferred_free type free]
    split_ifs with same
    · rw [same, Function.update_self]
      exact size_insert_le ..
    · rw [Function.update_of_ne same]
      exact le_rfl
  | early type main | counted type main =>
    refine .inl fun name => ?_
    simp only [Process.deferred, main]
    exact le_rfl
  | notified => exact .inl fun name => (congrArg _ (deferred_signal ..)).le
  | confirmed => exact .inl fun name => (congrArg _ (deferred_confirm ..)).le
  | agreed | waiting | ended | synced => exact .inl fun name => le_rfl

theorem work_unlock_le (names : Finset MutexName) (unlocking : process.main.Elsewhere)
    (name : MutexName) (caller : Caller σ) :
    (process.unlock name caller).work names + process.main.work ≤ process.work names + 1 := by
  have deferred : (process.unlock name caller).deferredWork names ≤ process.deferredWork names :=
    deferredWork_le fun other => (congrArg _ (deferred_unlock unlocking name caller other)).le
  have main : (process.unlock name caller).main.work ≤ 1 := by
    unfold Process.unlock
    split_ifs
    · exact le_rfl
    · rw [work_afterUnlock]
      exact Nat.zero_le 1
  have receiving : (process.unlock name caller).receiving = process.receiving := by
    unfold Process.unlock
    split_ifs <;> rfl
  unfold Process.work
  rw [receiving]
  omega

theorem sentWork_others (packet : Packet n) : sentWork [⟨packet, otherProcesses self⟩] =
    (n - 1) * packet.messageType.work n := by
  simp [sentWork, otherProcesses]

theorem sentWork_one (packet : Packet n) (p : ProcessId n) :
    sentWork [⟨packet, {p}⟩] = packet.messageType.work n := by
  simp [sentWork]

theorem Process.Covered.step {names' : Finset MutexName} (covered : process.Covered names)
    (does : ThreadStep serialization self monitors process action consumed process' sent)
    (more : names ⊆ names') (registered : process'.registeredMutexes ⊆ names') :
    process'.Covered names' := by
  refine ⟨registered, fun name some => ?_⟩
  have fewer : (process'.deferred name).size ≤ (process.deferred name).size → name ∈ names' :=
    fun fewer => more (covered.deferred name (by omega))
  cases does with
  | main does => exact fewer (mainStep_deferred does name)
  | dispatch received free dispatches does =>
    rcases dispatched_deferred free does with same | ⟨-, listed, inserted⟩
    · exact fewer (same name)
    · have kept := inserted name
      split_ifs at kept with here
      · exact here ▸ more (covered.registered listed)
      · exact fewer kept

theorem mainStep_work (covered : (s.process self).Covered names)
    (on : carriesOn s (self, action) = true)
    (does : MainStep serialization self (s.process self) action process' sent) :
    process'.work names + sentWork sent < (s.process self).work names := by
  have answered := mainStep_deferred does
  have deferred : process'.deferredWork names ≤ (s.process self).deferredWork names :=
    deferredWork_le answered
  cases does with
  | configured called =>
    cases action with
    | registerMutex | unregisterMutex | registerCV | unregisterCV => cases on
    | _ => cases called
  | notify called => rcases called with rfl | rfl <;> cases on
  | assign | lock | unlock | wait | leave => cases on
  | queue main =>
    rw [sentWork_others]
    simp only [Process.work, main, MainThread.work, MessageType.work]
    omega
  | acquired main =>
    simp only [Process.work, Process.unsubscribe] at deferred ⊢
    rw [work_afterLock, main]
    simp only [MainThread.work, sentWork, List.map_nil, List.sum_nil]
    omega
  | @answerDeferred request mutexName unanswered caller main waiting =>
    have here : (s.process self).deferred mutexName = unanswered := by
      rw [Process.deferred, main]
      exact if_pos rfl
    have fewer := size_remove_lt waiting
    have listed : mutexName ∈ names := covered.deferred mutexName (by rw [here]; omega)
    have less := deferredWork_lt answered listed (by
      rw [here]
      exact (congrArg PacketSet.size (if_pos rfl)).trans_lt fewer)
    rw [sentWork_one]
    simp only [Process.work, main, MainThread.work, MessageType.work]
    omega
  | @released mutexName unanswered caller main =>
    simp only [Process.work]
    rw [work_afterUnlock, main]
    simp only [MainThread.work, sentWork, List.map_nil, List.sum_nil]
    omega
  | announce main =>
    rw [sentWork_others]
    simp only [Process.work, main, MainThread.work, MessageType.work]
    omega
  | stop main =>
    simp only [Process.work, main, MainThread.work, checkWork, sentWork, List.map_nil,
      List.sum_nil]
    omega
  | @retry call main =>
    have unlocked := work_unlock_le names (by rw [main]; trivial) call.mutex (.wait call)
    simp only [main, MainThread.work, checkWork] at unlocked
    simp only [sentWork, List.map_nil, List.sum_nil]
    omega
  | @wake call signalled main =>
    have signal : signalled = true := by simpa [carriesOn, main] using on
    simp only [Process.acquireMutex, Process.subscribe] at deferred
    simp only [Process.acquireMutex, Process.subscribe, Process.work, main, signal, if_true,
      MainThread.work, Caller.lockWork, wakeWork, sentWork, List.map_nil, List.sum_nil]
    omega
  | subscribeConfirmations main =>
    simp only [Process.subscribe] at deferred
    simp only [Process.subscribe, Process.work, main, MainThread.work, sentWork, List.map_nil,
      List.sum_nil]
    omega
  | announceEnd main =>
    rw [sentWork_others]
    simp only [Process.work, main, MainThread.work, MessageType.work]
    omega
  | waitReturns main =>
    simp only [Process.unsubscribe] at deferred
    simp only [Process.unsubscribe, Process.work, main, MainThread.work, sentWork, List.map_nil,
      List.sum_nil]
    omega
  | sendNotify main =>
    simp only [Process.work, main, MainThread.work, MessageType.work, sentWork, List.map_cons,
      List.map_nil, List.sum_cons, List.sum_nil]
    omega
  | sendSync main =>
    rw [sentWork_others]
    simp only [Process.work, main, MainThread.work, MessageType.work]
    omega
  | @unlockMonitor monitor main =>
    have unlocked := work_unlock_le names (by rw [main]; trivial) monitor.1 .program
    simp only [main, MainThread.work] at unlocked
    simp only [sentWork, List.map_nil, List.sum_nil]
    omega

theorem dispatched_work (received : process.receiving = .received packet)
    (free : process.mustWait packet = false)
    (does : Dispatched self packet monitors process process' sent) :
    process'.work names + sentWork sent < process.work names := by
  have added : process'.deferredWork names ≤ process.deferredWork names + 4 :=
    (dispatched_deferred free does).elim
      (fun fewer => (deferredWork_le fewer).trans (Nat.le_add_right _ _))
      fun inserted => deferredWork_insert inserted.2.2
  have kept : ¬(packet.messageType = .mutexRequest ∧ sent = []) →
      process'.deferredWork names ≤ process.deferredWork names := fun other =>
    (dispatched_deferred free does).elim deferredWork_le fun inserted => absurd inserted.1 other
  cases does with
  | agreed type =>
    have deferred := kept (by simp)
    rw [sentWork_one]
    simp only [Process.work, received, ReceivingThread.work, type, MessageType.work]
    omega
  | deferred type registered =>
    simp only [Process.work, received, ReceivingThread.work, type, MessageType.work, sentWork,
      List.map_nil, List.sum_nil]
    omega
  | early type main | counted type main =>
    have deferred := kept (by simp [type])
    simp only [Process.work, received, ReceivingThread.work, type, main, MainThread.work,
      MessageType.work, sentWork, List.map_nil, List.sum_nil]
    omega
  | waiting type =>
    have deferred := kept (by simp [type])
    simp only [Process.recordWait] at deferred
    simp only [Process.recordWait, Process.work, received, ReceivingThread.work, type,
      MessageType.work, sentWork, List.map_nil, List.sum_nil]
    omega
  | synced type =>
    have deferred := kept (by simp [type])
    simp only [Process.work, received, ReceivingThread.work, type, MessageType.work, sentWork,
      List.map_nil, List.sum_nil]
    omega
  | ended type =>
    have deferred := kept (by simp)
    rw [sentWork_one]
    simp only [Process.work, received, ReceivingThread.work, type, MessageType.work]
    omega
  | notified type =>
    have deferred := kept (by simp [type])
    have woken := work_signal_le process.main packet.message
    simp only [Process.work, received, ReceivingThread.work, type, MessageType.work, sentWork,
      List.map_nil, List.sum_nil]
    omega
  | confirmed type =>
    have deferred := kept (by simp [type])
    simp only [Process.work, received, ReceivingThread.work, type, work_confirm, MessageType.work,
      sentWork, List.map_nil, List.sum_nil]
    omega

theorem work_receive {source : ProcessId n} {raw : RawPacket} {rest : List RawPacket}
    (listening : (s.process self).receiving = .listening)
    (head : s.channel source self = raw :: rest) :
    System.work names
      { process := Function.update s.process self
          ((s.process self).receive communicator source raw)
        channel := fun from' to' =>
          if from' = source ∧ to' = self then rest else s.channel from' to' } < s.work names := by
  have processes := work_process names s self
    ((s.process self).receive communicator source raw)
  have channels : ∑ p, ∑ q, channelWork n (if p = source ∧ q = self then rest else s.channel p q) +
      raw.messageType.work n = ∑ p, ∑ q, channelWork n (s.channel p q) := by
    have split : ∀ p q, channelWork n (s.channel p q) =
        channelWork n (if p = source ∧ q = self then rest else s.channel p q) +
          if q = self then if p = source then raw.messageType.work n else 0 else 0 := by
      intro p q
      by_cases here : p = source ∧ q = self
      · obtain ⟨rfl, rfl⟩ := here
        simp [head, channelWork, Nat.add_comm]
      · rw [if_neg here]
        split_ifs with mine from' <;> first | rfl | exact absurd ⟨from', mine⟩ here
    simp only [fun p q => split p q, Finset.sum_add_distrib, Finset.sum_ite_eq', Finset.mem_univ,
      if_true]
  have charged : 3 ≤ raw.messageType.work n := by
    cases raw.messageType <;> simp [MessageType.work]
  have received : ((s.process self).receive communicator source raw).work names + 1 ≤
      (s.process self).work names + raw.messageType.work n := by
    have deferred : ((s.process self).receive communicator source raw).deferredWork names =
        (s.process self).deferredWork names := rfl
    rw [Process.work, deferred]
    simp only [Process.receive, Process.work, listening, ReceivingThread.work]
    cases communicator <;> simp only [toPacket] <;> omega
  simp only [System.work]
  omega

theorem threadStep_registeredMutexes (quiet : action.configures = false)
    (does : ThreadStep serialization self monitors process action consumed process' sent) :
    process'.registeredMutexes = process.registeredMutexes := by
  cases does with
  | main does =>
    cases does with
    | configured called =>
      rw [quiet] at called
      cases called
    | unlock | retry | unlockMonitor => exact unlock_registered ..
    | _ => rfl
  | dispatch received free dispatches does => cases does <;> rfl

theorem configures_of_carriesOn (on : carriesOn s e = true) : e.2.configures = false := by
  obtain ⟨self, action⟩ := e
  cases action <;> first | rfl | cases on

theorem Process.Covered.read (covered : process.Covered names) (currentLamportTime : LamportTime)
    (receiving : ReceivingThread n) : Process.Covered names
      { process with currentLamportTime := currentLamportTime, receiving := receiving } :=
  ⟨covered.registered, covered.deferred⟩

theorem covered_quiet (wf : s.WellFormed setup) (covered : ∀ p, (s.process p).Covered names)
    (quiet : e.2.configures = false) (taken : step communicator serialization s e = some s') :
    ∀ p, (s'.process p).Covered names := by
  cases systemStep wf taken with
  | @receive self | @updateTimestamp self =>
    exact forall_update covered ((covered self).read _ _)
  | @acts self action consumed process' sent does =>
    refine forall_update covered ((covered self).step does subset_rfl ?_)
    rw [threadStep_registeredMutexes quiet does]
    exact (covered self).registered

theorem work_step (wf : s.WellFormed setup) (covered : ∀ p, (s.process p).Covered names)
    (on : carriesOn s e = true) (taken : step communicator serialization s e = some s') :
    (∀ p, (s'.process p).Covered names) ∧ s'.work names < s.work names := by
  refine ⟨covered_quiet wf covered (configures_of_carriesOn on) taken, ?_⟩
  cases systemStep wf taken with
  | receive listening head => exact work_receive listening head
  | @updateTimestamp self packet updating =>
    have charged : 3 ≤ packet.messageType.work n := by
      cases packet.messageType <;> simp [MessageType.work]
    have thread : Process.work names { s.process self with
        receiving := .received
          { packet with lamportTime := (s.process self).currentLamportTime } } +
          sentWork ([] : List (Envelope n)) < (s.process self).work names := by
      simp only [Process.work, updating, ReceivingThread.work, sentWork, List.map_nil,
        List.sum_nil]
      change _ + _ + (s.process self).deferredWork names + 0 < _
      omega
    have account := work_update names s self { s.process self with
      receiving := .received
        { packet with lamportTime := (s.process self).currentLamportTime } } []
    omega
  | @acts self action consumed process' sent does =>
    have account := work_update names s self process' sent
    have thread : process'.work names + sentWork sent < (s.process self).work names := by
      cases does with
      | main does => exact mainStep_work (covered self) on does
      | dispatch received free dispatches does => exact dispatched_work received free does
    omega

theorem Process.Covered.mono {names' : Finset MutexName} (covered : process.Covered names)
    (more : names ⊆ names') : process.Covered names' :=
  ⟨covered.registered.trans more, fun name some => more (covered.deferred name some)⟩

theorem covered_run (run : Run communicator serialization setup contract trace s) :
    ∃ names, ∀ p, (s.process p).Covered names := by
  have each : ∀ p, ∃ names, (s.process p).Covered names := by
    intro p
    refine process_run (P := fun process => ∃ names, process.Covered names) run ?_ ?_ ?_ p
    · exact fun p => ⟨(setup.process p).registeredMutexes, subset_rfl,
        fun name some => absurd rfl some⟩
    · exact fun process clock receiving ⟨names, covered⟩ => ⟨names, covered.read _ _⟩
    · exact fun trace s self action consumed process' sent _ _ ⟨names, covered⟩ does =>
        ⟨names ∪ process'.registeredMutexes,
          covered.step does Finset.subset_union_left Finset.subset_union_right⟩
  choose names covered using each
  exact ⟨Finset.univ.biUnion names, fun p =>
    (covered p).mono (Finset.subset_biUnion_of_mem names (Finset.mem_univ p))⟩

theorem work_left {later : Trace (System n σ) (Event n σ)} (wf : s.WellFormed setup)
    (covered : ∀ p, (s.process p).Covered names)
    (more : Execution (step communicator serialization) (· = s)
      (fun _ s e => carriesOn s e = true) later s') : later.length ≤ s.work names := by
  have bound := more.length_le
    (I := fun s => s.WellFormed setup ∧ ∀ p, (s.process p).Covered names) ⟨wf, covered⟩
    fun trace s e s' holds on taken => by
      obtain ⟨wf, covered⟩ := holds
      obtain ⟨covered', less⟩ := work_step wf covered on taken
      exact ⟨⟨wf.step (systemStep wf taken), covered'⟩, less⟩
  exact (Nat.le_add_right _ _).trans bound.2

/-- When the programs call nothing more, only so many steps are left, whatever their order:
packets do not set off packets for ever. -/
theorem work_bounded (run : Run communicator serialization setup contract trace s) :
    ∃ bound, ∀ later s', Execution (step communicator serialization) (· = s)
      (fun _ s e => carriesOn s e = true) later s' → later.length ≤ bound := by
  obtain ⟨names, covered⟩ := covered_run run
  exact ⟨s.work names, fun later s' more => work_left (wellFormed_run run) covered more⟩

theorem work_bounded_two : ∃ trace s,
    Run .optimized unary (plain 2) (fun _ _ _ => True) trace s ∧
      (s.process 0).main.collecting? = some gate ∧ (s.process 1).main.collecting? = some gate ∧
      ∃ bound, ∀ later s', Execution (step .optimized unary) (· = s)
        (fun _ s e => carriesOn s e = true) later s' → later.length ≤ bound := by
  obtain ⟨trace, s, run, reached⟩ := exists_run .optimized unary (plain 2) (fun _ _ _ => True)
    [(0, .lock gate), (0, .queue), (1, .lock gate), (1, .queue)]
    (fun _ s => (s.process 0).main.collecting? = some gate ∧
      (s.process 1).main.collecting? = some gate) (by decide +kernel)
  obtain ⟨first, second⟩ := of_decide_eq_true reached
  exact ⟨trace, s, run, first, second, work_bounded run⟩

end DistributedMonitor
