import DistributedMonitor.Replica

/-! Entering a monitor and finding the state its last user left. Updates of different
users travel on different channels, so this needs every process to apply them in the
order of their stamps. -/

namespace DistributedMonitor
open Library TicketExclusion

variable {n : ℕ} {σ : Type} {communicator : Communicator} {serialization : Serialization σ}
  {setup : Setup n σ} {contract : Permission (System n σ) (Event n σ)}
  {trace : Trace (System n σ) (Event n σ)} {s s' : System n σ} {e : Event n σ}
  {self : ProcessId n} {monitors : List MonitorName} {process process' : Process n σ}
  {action : Action n σ} {consumed : Option (Packet n)} {sent : List (Envelope n)}
  {packet : Packet n} {monitor : MonitorName} {initial : σ}

/-- The state that an event serializes to leave the monitor with. -/
def leftWith (monitor : MonitorName) (s : System n σ) (e : Event n σ) : Option σ :=
  match e.2 with
  | .leave other => if other = monitor then some ((s.process e.1).state monitor.1) else none
  | _ => none

def lastLeft (monitor : MonitorName) (initial : σ) (trace : Trace (System n σ) (Event n σ)) : σ :=
  (recorded (leftWith monitor) trace).headD initial

/-- The stamp of an update that an event broadcasts, with the state it carries. -/
def broadcast (monitor : MonitorName) (s : System n σ) (e : Event n σ) :
    Option (LamportTime × σ) :=
  match e.2, (s.process e.1).main with
  | .sendSync, .saved _ _ =>
      some ((s.process e.1).currentLamportTime + 1, (s.process e.1).state monitor.1)
  | _, _ => none

def dispatchedSync (s : System n σ) (e : Event n σ) : Option LamportTime :=
  match e.2, (s.process e.1).receiving with
  | .dispatch, .received packet =>
      if packet.messageType = .sync then some packet.lamportTime else none
  | _, _ => none

def updates (monitor : MonitorName) (trace : Trace (System n σ) (Event n σ)) :
    List (LamportTime × σ) :=
  recorded (broadcast monitor) trace

def latestUpdate (monitor : MonitorName) (initial : σ) (trace : Trace (System n σ) (Event n σ)) : σ :=
  ((updates monitor trace).head?.map (·.2)).getD initial

def ofProcess (p : ProcessId n) (read : System n σ → Event n σ → Option LamportTime) (s : System n σ)
    (e : Event n σ) : Option LamportTime :=
  if e.1 = p then read s e else none

theorem ofProcess_self (read : System n σ → Event n σ → Option LamportTime) :
    ofProcess e.1 read s e = read s e :=
  if_pos rfl

theorem ofProcess_other {p : ProcessId n} (other : e.1 ≠ p)
    (read : System n σ → Event n σ → Option LamportTime) : ofProcess p read s e = none :=
  if_neg other

def syncStamps (p : ProcessId n) (trace : Trace (System n σ) (Event n σ)) : List LamportTime :=
  recorded (ofProcess p dispatchedSync) trace

def ownStamps (monitor : MonitorName) (p : ProcessId n)
    (trace : Trace (System n σ) (Event n σ)) : List LamportTime :=
  recorded (ofProcess p fun s e => (broadcast monitor s e).map (·.1)) trace

/-- The stamp of the update that a process has last sent or dispatched. -/
def front (monitor : MonitorName) (p : ProcessId n) (trace : Trace (System n σ) (Event n σ)) :
    LamportTime :=
  (recorded (ofProcess p fun s e => ((broadcast monitor s e).map (·.1)).or (dispatchedSync s e))
    trace).headD 0

/-- Entries lock through the helper, change the state only while they hold the mutex and
leave through its destructor, and none of them waits. -/
def entriesOnly (monitor : MonitorName) (s : System n σ) (e : Event n σ) : Bool :=
  match e.2 with
  | .lock mutexName => !(s.process e.1).owned mutexName
  | .unlock mutexName => mutexName ≠ monitor.1
  | .assign mutexName _ => mutexName ≠ monitor.1 ∨ (s.process e.1).owned monitor.1
  | .wait _ mutexName _ => mutexName ≠ monitor.1
  | .leave other => other = monitor ∧ (s.process e.1).owned monitor.1
  | _ => true

def entriesThatWait (monitor : MonitorName) (s : System n σ) (e : Event n σ) : Bool :=
  match e.2 with
  | .lock mutexName => !(s.process e.1).owned mutexName
  | .unlock mutexName => mutexName ≠ monitor.1
  | .assign mutexName _ => mutexName ≠ monitor.1 ∨ (s.process e.1).owned monitor.1
  | .leave other => other = monitor ∧ (s.process e.1).owned monitor.1
  | _ => true

/-- A wait is about to give the mutex of the monitor away. -/
def blocksIn (monitor : MonitorName) (s : System n σ) (e : Event n σ) : Bool :=
  match e.2, (s.process e.1).main with
  | .evaluate, .checking call =>
      call.mutex = monitor.1 && !call.predicate ((s.process e.1).state call.mutex)
  | _, _ => false

/-- Updates are dispatched in the order of their stamps, and none of them packs an empty
state behind a name of 255 bytes, whose length is read as -1. -/
def syncsInOrder (monitor : MonitorName) (trace : Trace (System n σ) (Event n σ))
    (s : System n σ) (e : Event n σ) : Bool :=
  match e.2, (s.process e.1).receiving with
  | .dispatch, .received packet => packet.messageType ≠ .sync ∨
      (∀ stamp ∈ syncStamps e.1 trace, stamp < packet.lamportTime) ∧
        ¬(monitor.1.length = 255 ∧ packet.message.length = 256)
  | _, _ => true

/-- Every entry finds the state with which the last one was left. -/
def CoherentEntry (serialization : Serialization σ) (monitor : MonitorName) (initial : σ)
    (trace : Trace (System n σ) (Event n σ)) (s : System n σ) : Prop :=
  ∀ p s', (s.process p).main.collecting? = some monitor.1 →
    step .simple serialization s (p, .acquired) = some s' →
    (s'.process p).state monitor.1 = lastLeft monitor initial trace

def MainThread.saved? : MainThread n σ → Option (MonitorName × ByteString)
  | .saved monitor serializedState => some (monitor, serializedState)
  | _ => none

/-- The holder may change the state until it has broadcast it. -/
def Process.Editing (monitor : MonitorName) (process : Process n σ) : Prop :=
  process.holds monitor.1 = true ∧ process.main ≠ .synced monitor

/-- A state is that of the update last sent or dispatched by the process. -/
def UpToDate (monitor : MonitorName) (initial : σ) (trace : Trace (System n σ) (Event n σ))
    (p : ProcessId n) (state : σ) : Prop :=
  (front monitor p trace, state) ∈ updates monitor trace ∨
    front monitor p trace = 0 ∧ state = initial

structure Replicated (serialization : Serialization σ) (monitor : MonitorName) (initial : σ)
    (trace : Trace (System n σ) (Event n σ)) (s : System n σ) : Prop where
  positive : ∀ update ∈ updates monitor trace, 0 < update.1
  sorted : (updates monitor trace).Pairwise fun newer older => older.1 < newer.1
  carried : ∀ p q, ∀ raw ∈ s.pending p q, raw.messageType = .sync →
    ∃ state, (raw.lamportTime, state) ∈ updates monitor trace ∧
      raw.message = packSyncMessage monitor.1 (serialization.saveState monitor state)
  delivered : ∀ q, ∀ update ∈ updates monitor trace, update.1 ≤ front monitor q trace ∨
    ∃ p, ∃ raw ∈ s.pending p q, raw.messageType = .sync ∧ raw.lamportTime = update.1
  fresh : ∀ p q, ∀ raw ∈ s.pending p q, raw.messageType = .sync →
    ∀ stamp ∈ ownStamps monitor q trace, stamp < raw.lamportTime
  value : ∀ q, ¬(s.process q).Editing monitor →
    (front monitor q trace, (s.process q).state monitor.1) ∈ updates monitor trace ∨
      front monitor q trace = 0 ∧ (s.process q).state monitor.1 = initial
  clock : ∀ q, front monitor q trace ≤ (s.process q).currentLamportTime
  inbox : ∀ q packet, (s.process q).receiving = .received packet →
    packet.lamportTime ≤ (s.process q).currentLamportTime
  saved : ∀ p left, (s.process p).main.saved? = some left →
    left.2 = serialization.saveState monitor ((s.process p).state monitor.1) ∧
      lastLeft monitor initial trace = (s.process p).state monitor.1
  last : (∀ p, (s.process p).main.saved? = none) →
    lastLeft monitor initial trace = ((updates monitor trace).head?.map (·.2)).getD initial

theorem front_self {stamp : LamportTime}
    (read : ((broadcast monitor s e).map (·.1)).or (dispatchedSync s e) = some stamp) :
    front monitor e.1 ((s, e) :: trace) = stamp := by
  unfold front
  rw [recorded_some ((ofProcess_self _).trans read)]
  rfl

theorem front_other {q : ProcessId n} (other : e.1 ≠ q) :
    front monitor q ((s, e) :: trace) = front monitor q trace := by
  unfold front
  rw [recorded_none (ofProcess_other other _)]

theorem front_quiet (unsent : broadcast monitor s e = none)
    (undispatched : dispatchedSync s e = none) (q : ProcessId n) :
    front monitor q ((s, e) :: trace) = front monitor q trace := by
  unfold front
  rw [recorded_none]
  simp only [ofProcess, unsent, undispatched, Option.map_none, Option.or_none, ite_self]

theorem ownStamps_other {q : ProcessId n} (other : e.1 ≠ q) :
    ownStamps monitor q ((s, e) :: trace) = ownStamps monitor q trace :=
  recorded_none (ofProcess_other other _)

theorem ownStamps_unsent (unsent : broadcast monitor s e = none) (q : ProcessId n) :
    ownStamps monitor q ((s, e) :: trace) = ownStamps monitor q trace := by
  apply recorded_none
  simp only [ofProcess, unsent, Option.map_none, ite_self]

theorem own_updated {stamp : LamportTime} {q : ProcessId n}
    (member : stamp ∈ ownStamps monitor q trace) :
    ∃ state, (stamp, state) ∈ updates monitor trace := by
  obtain ⟨entry, listed, read⟩ := mem_recorded.1 member
  unfold ofProcess at read
  split_ifs at read
  obtain ⟨update, sends, rfl⟩ := Option.map_eq_some_iff.1 read
  exact ⟨update.2, mem_recorded.2 ⟨entry, listed, sends⟩⟩

theorem front_cases (monitor : MonitorName) (q : ProcessId n)
    (trace : Trace (System n σ) (Event n σ)) :
    front monitor q trace = 0 ∨ front monitor q trace ∈ ownStamps monitor q trace ∨
      front monitor q trace ∈ syncStamps q trace := by
  unfold front
  cases list : recorded (ofProcess q fun s e =>
      ((broadcast monitor s e).map (·.1)).or (dispatchedSync s e)) trace with
  | nil => exact .inl rfl
  | cons stamp rest =>
    right
    obtain ⟨entry, listed, read⟩ := mem_recorded.1 (list ▸ List.mem_cons_self ..)
    unfold ofProcess at read
    split_ifs at read with mine
    rcases Option.or_eq_some_iff.1 read with sends | ⟨-, dispatches⟩
    · exact .inl (mem_recorded.2 ⟨entry, listed, mine ▸ (ofProcess_self _).trans sends⟩)
    · exact .inr (mem_recorded.2 ⟨entry, listed, mine ▸ (ofProcess_self _).trans dispatches⟩)

/-- An update that somebody lacks is still on its way to him, unless he has got past it. -/
theorem Replicated.delivered_kept (rep : Replicated serialization monitor initial trace s)
    {q : ProcessId n} {update : LamportTime × σ} (old : update ∈ updates monitor trace)
    (onward : front monitor q trace ≤ front monitor q ((s, e) :: trace))
    (kept : ∀ p, ∀ raw ∈ s.pending p q, raw.messageType = .sync →
      raw ∈ s'.pending p q ∨ raw.lamportTime ≤ front monitor q ((s, e) :: trace)) :
    update.1 ≤ front monitor q ((s, e) :: trace) ∨
      ∃ p, ∃ raw ∈ s'.pending p q, raw.messageType = .sync ∧ raw.lamportTime = update.1 := by
  rcases rep.delivered q update old with reached | ⟨p, raw, waits, type, stamp⟩
  · exact .inl (reached.trans onward)
  · rcases kept p raw waits type with still | passed
    · exact .inr ⟨p, raw, still, type, stamp⟩
    · exact .inl (stamp ▸ passed)

section
variable (others : ∀ q, q ≠ e.1 → s'.process q = s.process q)
include others

theorem Replicated.values (rep : Replicated serialization monitor initial trace s)
    (more : updates monitor trace ⊆ updates monitor ((s, e) :: trace))
    (own : ¬(s'.process e.1).Editing monitor →
      UpToDate monitor initial ((s, e) :: trace) e.1 ((s'.process e.1).state monitor.1))
    (q : ProcessId n) (settled : ¬(s'.process q).Editing monitor) :
    UpToDate monitor initial ((s, e) :: trace) q ((s'.process q).state monitor.1) := by
  by_cases mine : q = e.1
  · subst mine
    exact own settled
  · rw [others q mine] at settled ⊢
    unfold UpToDate
    rw [front_other (Ne.symm mine)]
    exact (rep.value q settled).imp_left fun listed => more listed

theorem Replicated.clocks (rep : Replicated serialization monitor initial trace s)
    (own : front monitor e.1 ((s, e) :: trace) ≤ (s'.process e.1).currentLamportTime)
    (q : ProcessId n) :
    front monitor q ((s, e) :: trace) ≤ (s'.process q).currentLamportTime := by
  by_cases mine : q = e.1
  · subst mine
    exact own
  · rw [others q mine, front_other (Ne.symm mine)]
    exact rep.clock q

end

theorem Replicated.inboxes (rep : Replicated serialization monitor initial trace s)
    (others : ∀ q, q ≠ self → s'.process q = s.process q)
    (own : ∀ packet, (s'.process self).receiving = .received packet →
      packet.lamportTime ≤ (s'.process self).currentLamportTime)
    (q : ProcessId n) (packet : Packet n) (received : (s'.process q).receiving = .received packet) :
    packet.lamportTime ≤ (s'.process q).currentLamportTime := by
  by_cases mine : q = self
  · subst mine
    exact own packet received
  · rw [others q mine] at received ⊢
    exact rep.inbox q packet received

theorem Replicated.quiet (rep : Replicated serialization monitor initial trace s)
    (unsent : broadcast monitor s e = none) (undispatched : dispatchedSync s e = none)
    (syncs : ∀ p q raw, raw.messageType = .sync → (raw ∈ s'.pending p q ↔ raw ∈ s.pending p q))
    (value : ∀ q, ¬(s'.process q).Editing monitor →
      UpToDate monitor initial trace q ((s'.process q).state monitor.1))
    (clock : ∀ q, (s.process q).currentLamportTime ≤ (s'.process q).currentLamportTime)
    (inbox : ∀ q packet, (s'.process q).receiving = .received packet →
      packet.lamportTime ≤ (s'.process q).currentLamportTime)
    (saved : ∀ p left, (s'.process p).main.saved? = some left →
      left.2 = serialization.saveState monitor ((s'.process p).state monitor.1) ∧
        lastLeft monitor initial ((s, e) :: trace) = (s'.process p).state monitor.1)
    (last : (∀ p, (s'.process p).main.saved? = none) →
      lastLeft monitor initial ((s, e) :: trace) =
        ((updates monitor trace).head?.map (·.2)).getD initial) :
    Replicated serialization monitor initial ((s, e) :: trace) s' := by
  have updated : updates monitor ((s, e) :: trace) = updates monitor trace :=
    recorded_none unsent
  have fronts : ∀ q, front monitor q ((s, e) :: trace) = front monitor q trace :=
    front_quiet unsent undispatched
  constructor
  case positive =>
    rw [updated]
    exact rep.positive
  case sorted =>
    rw [updated]
    exact rep.sorted
  case carried =>
    intro p q raw member type
    rw [updated]
    exact rep.carried p q raw ((syncs p q raw type).1 member) type
  case delivered =>
    intro q update member
    rw [updated] at member
    exact rep.delivered_kept member (fronts q).ge
      fun p raw pending type => .inl ((syncs p q raw type).2 pending)
  case fresh =>
    intro p q raw member type
    rw [ownStamps_unsent unsent]
    exact rep.fresh p q raw ((syncs p q raw type).1 member) type
  case value =>
    intro q settled
    rw [updated, fronts]
    exact value q settled
  case clock =>
    intro q
    rw [fronts]
    exact (rep.clock q).trans (clock q)
  case inbox => exact inbox
  case saved => exact saved
  case last =>
    rw [updated]
    exact last

end DistributedMonitor
