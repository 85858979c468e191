import Mathlib.Algebra.BigOperators.Fin
import DistributedMonitor.Library.RingQueue
import DistributedMonitor.Exchange

/-! The examples: a bounded buffer as a monitor, processes of even rank that produce and others
that consume. Two processes exchange every value once and in order, whichever of the two ways
the buffer is kept. -/

namespace DistributedMonitor
open Library

variable {n : ℕ} {σ ρ : Type}

/-- A monitor whose states hold a bounded list of values, with an entry that puts a value behind
the others and an entry that takes the first. -/
structure Buffering (σ ρ : Type) where
  produce : ρ → Entry σ ρ
  consume : Entry σ ρ
  size : ℕ
  Holds : σ → List ρ → Prop
  bounded : ∀ {state values}, Holds state values → values.length ≤ size
  hasRoom : ∀ {state values} request, Holds state values →
    ((produce request).ready state = true ↔ values.length < size)
  hasValue : ∀ {state values}, Holds state values → (consume.ready state = true ↔ values ≠ [])
  produces : ∀ {state values} request, Holds state values → values.length < size →
    ∃ state', (produce request).run state = some (state', request) ∧
      Holds state' (values ++ [request])
  consumes : ∀ {state value values}, Holds state (value :: values) →
    ∃ state', consume.run state = some (state', value) ∧ Holds state' values

/-- The `main` of every example: what comes in a round is produced or something is consumed. -/
def Buffering.program (buffering : Buffering σ ρ) (requests : ℕ → ρ) : Program n σ ρ :=
  fun p round => if p.val % 2 = 0 then buffering.produce (requests round) else buffering.consume

/-- What the entries of some processes have returned, the oldest first. -/
def returnedBy (who : ProcessId n → Bool) (returned : List (ProcessId n × ρ)) : List ρ :=
  ((returned.filter (who ·.1)).map (·.2)).reverse

def isProducer (p : ProcessId n) : Bool := p.val % 2 = 0

def isConsumer (p : ProcessId n) : Bool := !isProducer p

theorem returnedBy_cons (who : ProcessId n → Bool) (p : ProcessId n) (result : ρ)
    (returned : List (ProcessId n × ρ)) : returnedBy who ((p, result) :: returned) =
      returnedBy who returned ++ if who p then [result] else [] := by
  unfold returnedBy
  cases mine : who p with
  | true => simp [mine]
  | false => simp [mine]

section
variable {buffering : Buffering σ ρ} {requests : ℕ → ρ} {initial : σ} {a a' : Sequential n σ}
  {history : Trace (Sequential n σ) (ProcessId n)} {p : ProcessId n}

theorem Buffering.step {values : List ρ} (holds : buffering.Holds a.state values)
    (stepped : a.step (buffering.program requests) p = some a') :
    ∃ values' result, buffering.Holds a'.state values' ∧
      a.returns (buffering.program requests) p = some (p, result) ∧
      a'.round = Function.update a.round p (a.round p + 1) ∧
      (isProducer p = true ∧ result = requests (a.round p) ∧ values' = values ++ [result] ∨
        isProducer p = false ∧ values = result :: values') := by
  unfold Sequential.step at stepped
  split_ifs at stepped with ready
  obtain ⟨after, ran, rfl⟩ := Option.map_eq_some_iff.1 stepped
  rw [Sequential.returns, ran]
  unfold Buffering.program at ready ran
  split_ifs at ready ran with even
  · obtain ⟨state', ran', holds'⟩ := buffering.produces (requests (a.round p)) holds
      ((buffering.hasRoom _ holds).1 ready)
    rw [ran] at ran'
    cases ran'
    exact ⟨_, _, holds', rfl, rfl, .inl ⟨decide_eq_true even, rfl, rfl⟩⟩
  · cases values with
    | nil => exact absurd rfl ((buffering.hasValue holds).1 ready)
    | cons value values =>
      obtain ⟨state', ran', holds'⟩ := buffering.consumes holds
      rw [ran] at ran'
      cases ran'
      exact ⟨_, _, holds', rfl, rfl, .inr ⟨decide_eq_false even, rfl⟩⟩

theorem Buffering.runs {values : List ρ} (holds : buffering.Holds a.state values)
    (ready : (buffering.program requests p (a.round p)).ready a.state = true) :
    ((buffering.program requests p (a.round p)).run a.state).isSome := by
  unfold Buffering.program at ready ⊢
  split_ifs at ready ⊢
  · obtain ⟨state', ran, -⟩ := buffering.produces (requests (a.round p)) holds
      ((buffering.hasRoom _ holds).1 ready)
    rw [ran]
    rfl
  · cases values with
    | nil => exact absurd rfl ((buffering.hasValue holds).1 ready)
    | cons value values =>
      obtain ⟨state', ran, -⟩ := buffering.consumes holds
      rw [ran]
      rfl

theorem Buffering.conserves (empty : buffering.Holds initial [])
    (run : Sequential.Run (buffering.program requests) initial history a) :
    ∃ values, buffering.Holds a.state values ∧
      returnedBy isProducer (recorded (Sequential.returns (buffering.program requests)) history) =
        returnedBy isConsumer (recorded (Sequential.returns (buffering.program requests)) history) ++
          values := by
  induction run with
  | start begins =>
    subst begins
    exact ⟨[], empty, rfl⟩
  | next run may taken ih =>
    obtain ⟨values, holds, same⟩ := ih
    obtain ⟨values', result, holds', returns, -, kind⟩ := buffering.step holds taken
    refine ⟨values', holds', ?_⟩
    rw [recorded_some returns, returnedBy_cons, returnedBy_cons, same, isConsumer]
    rcases kind with ⟨even, -, rfl⟩ | ⟨odd, rfl⟩
    · simp [even]
    · simp [odd]

theorem Buffering.produced (empty : buffering.Holds initial [])
    (run : Sequential.Run (buffering.program requests) initial history a)
    (producer : isProducer p = true) :
    returnedBy (· = p) (recorded (Sequential.returns (buffering.program requests)) history) =
      (List.range (a.round p)).map requests := by
  induction run with
  | start begins =>
    subst begins
    rfl
  | @next history a a' q run may taken ih =>
    obtain ⟨values, holds, -⟩ := buffering.conserves empty run
    obtain ⟨values', result, -, returns, round, kind⟩ := buffering.step holds taken
    rw [recorded_some returns, returnedBy_cons, ih, round]
    by_cases mine : q = p
    · subst mine
      rcases kind with ⟨-, rfl, -⟩ | ⟨odd, -⟩
      · rw [if_pos (decide_eq_true rfl), Function.update_self, List.range_succ, List.map_append]
        rfl
      · rw [producer] at odd
        cases odd
    · rw [if_neg (by simpa using mine), List.append_nil, Function.update_of_ne (Ne.symm mine)]

end

/-- What the producers have put in is what the consumers have taken out and what the buffer
holds, in this order; and no statement of a body is undefined. -/
structure Buffering.Conserves (buffering : Buffering σ ρ) (requests : ℕ → ρ) (monitor : MonitorName)
    (moves : Trace (Client n σ ρ) (Move n σ)) (c : Client n σ ρ) : Prop where
  produced : ∀ p, isProducer p = true → returnedBy (· = p)
      (recorded (Client.returns (buffering.program requests) monitor) moves) =
    (List.range (c.finished p)).map requests
  consumed : ∃ values, values.length ≤ buffering.size ∧ returnedBy isProducer
      (recorded (Client.returns (buffering.program requests) monitor) moves) = returnedBy isConsumer
      (recorded (Client.returns (buffering.program requests) monitor) moves) ++ values
  defined : ∀ p done locals, (c.system.process p).main = .running →
    c.position p = .body done locals → (c.next monitor (buffering.program requests) p).isSome

theorem Buffering.conserved {buffering : Buffering σ ρ} {requests : ℕ → ρ} {initial : σ}
    {serialization : Serialization σ} {setup : Setup n σ} {monitor : MonitorName}
    {c : Client n σ ρ} {moves : Trace (Client n σ ρ) (Move n σ)}
    {contract : Permission (Client n σ ρ) (Move n σ)} (empty : buffering.Holds initial [])
    (current : ∀ moves c, Execution (Client.step serialization monitor (buffering.program requests))
      (· = setup.client) contract moves c → Current monitor initial
        (Client.systemTrace monitor (buffering.program requests) moves) c.system)
    (run : Execution (Client.step serialization monitor (buffering.program requests))
      (· = setup.client) contract moves c) : buffering.Conserves requests monitor moves c := by
  obtain ⟨history, a, sequential, same, tracks⟩ := linearized_of current run
  obtain ⟨values, holds, exchanged⟩ := buffering.conserves empty sequential
  rw [same] at exchanged
  refine ⟨fun p producer => ?_, ⟨values, buffering.bounded holds, exchanged⟩, ?_⟩
  · rw [← same, buffering.produced empty sequential producer, tracks.round]
  · intro p done locals main here
    have sound : c.Sound setup serialization monitor initial (buffering.program requests) moves :=
      sound_run (run.weaken fun _ _ _ _ => trivial)
    exact tracks.goes sound (current _ _ run).held main here (buffering.runs holds)

theorem first_produces : ∀ p : ProcessId 2, isProducer p = true ↔ p = 0 := by
  decide

theorem second_consumes : ∀ p : ProcessId 2, isProducer p = false → p = 1 := by
  decide

/-- What one process has produced is what the other has consumed, each value once and in order,
and what the buffer holds; and no statement of a body is undefined. -/
structure Buffering.Delivers (buffering : Buffering σ ρ) (requests : ℕ → ρ) (monitor : MonitorName)
    (moves : Trace (Client 2 σ ρ) (Move 2 σ)) (c : Client 2 σ ρ) : Prop where
  produced : returnedBy isProducer
      (recorded (Client.returns (buffering.program requests) monitor) moves) =
    (List.range (c.finished 0)).map requests
  consumed : ∃ values, values.length ≤ buffering.size ∧
    (List.range (c.finished 0)).map requests = returnedBy isConsumer
      (recorded (Client.returns (buffering.program requests) monitor) moves) ++ values
  defined : ∀ p done locals, (c.system.process p).main = .running →
    c.position p = .body done locals → (c.next monitor (buffering.program requests) p).isSome

theorem Buffering.delivers {buffering : Buffering σ ρ} {requests : ℕ → ρ} {initial : σ}
    {serialization : Serialization σ} {setup : Setup 2 σ} {monitor : MonitorName}
    {c : Client 2 σ ρ} {moves : Trace (Client 2 σ ρ) (Move 2 σ)}
    (empty : buffering.Holds initial []) (shares : ∀ p, setup.monitors p = [monitor])
    (alike : ∀ p, setup.state p monitor.1 = initial)
    (restores : ∀ old state,
      serialization.restoreState monitor old (serialization.saveState monitor state) = state)
    (short : monitor.1.length ≠ 255)
    (run : Client.Run serialization setup monitor (buffering.program requests) moves c) :
    buffering.Delivers requests monitor moves c := by
  have conserved : buffering.Conserves requests monitor moves c := Buffering.conserved empty
    (fun _ _ run => client_current shares alike restores (orders_two short) (sound_run run)) run
  have alone : (isProducer : ProcessId 2 → Bool) = fun p => decide (p = 0) := by
    funext p
    exact Bool.eq_iff_iff.2 ((first_produces p).trans decide_eq_true_iff.symm)
  have produced := conserved.produced 0 rfl
  have consumed := conserved.consumed
  rw [← alone] at produced
  rw [produced] at consumed
  exact ⟨produced, consumed, conserved.defined⟩

theorem Buffering.balanced {buffering : Buffering σ ρ} {requests : ℕ → ρ} {initial : σ}
    {a : Sequential 2 σ} {history : Trace (Sequential 2 σ) (ProcessId 2)}
    (empty : buffering.Holds initial [])
    (run : Sequential.Run (buffering.program requests) initial history a) :
    ∃ values, buffering.Holds a.state values ∧ a.round 0 = a.round 1 + values.length := by
  induction run with
  | start begins =>
    subst begins
    exact ⟨[], empty, rfl⟩
  | @next history a a' p run may taken ih =>
    obtain ⟨values, holds, ahead⟩ := ih
    obtain ⟨values', result, holds', -, round, kind⟩ := buffering.step holds taken
    refine ⟨values', holds', ?_⟩
    rw [round]
    rcases kind with ⟨even, -, rfl⟩ | ⟨odd, rfl⟩
    · obtain rfl := (first_produces p).1 even
      rw [Function.update_self, Function.update_of_ne (by decide), List.length_append, ahead]
      rfl
    · obtain rfl := second_consumes p odd
      rw [Function.update_self, Function.update_of_ne (by decide), ahead, List.length_cons]
      omega

theorem Buffering.exchanges {buffering : Buffering σ ρ} {requests : ℕ → ρ} {initial : σ}
    (empty : buffering.Holds initial []) (room : 0 < buffering.size)
    (wakes : ∀ request, (buffering.produce request).notifies = buffering.consume.waitsOn)
    (wakes' : ∀ request, buffering.consume.notifies = (buffering.produce request).waitsOn) :
    (buffering.program requests : Program 2 σ ρ).Exchanges initial where
  wakes p q k k' different := by
    have opposite : ∀ p q : ProcessId 2, p ≠ q →
        (q.val % 2 = 0 ∧ ¬p.val % 2 = 0) ∨ (¬q.val % 2 = 0 ∧ p.val % 2 = 0) := by decide
    unfold Buffering.program
    rcases opposite p q different with ⟨produces, consumes⟩ | ⟨consumes, produces⟩
    · rw [if_pos produces, if_neg consumes]
      exact wakes _
    · rw [if_neg consumes, if_pos produces]
      exact wakes' _
  runs history a p sequential ready := by
    obtain ⟨values, holds, -⟩ := buffering.balanced empty sequential
    exact buffering.runs holds ready
  goes history a sequential := by
    obtain ⟨values, holds, -⟩ := buffering.balanced empty sequential
    cases values with
    | nil => exact ⟨0, (buffering.hasRoom _ holds).2 room⟩
    | cons value values => exact ⟨1, (buffering.hasValue holds).2 (List.cons_ne_nil _ _)⟩

theorem Buffering.go_on {buffering : Buffering σ ρ} {requests : ℕ → ρ} {initial : σ}
    {serialization : Serialization σ} {setup : Setup 2 σ} {monitor : MonitorName}
    {c : Client 2 σ ρ} {moves : Trace (Client 2 σ ρ) (Move 2 σ)}
    (empty : buffering.Holds initial []) (shares : ∀ p, setup.monitors p = [monitor])
    (alike : ∀ p, setup.state p monitor.1 = initial)
    (restores : ∀ old state,
      serialization.restoreState monitor old (serialization.saveState monitor state) = state)
    (short : monitor.1.length < 128)
    (exchanges : (buffering.program requests : Program 2 σ ρ).Exchanges initial)
    (registered : ∀ p q : ProcessId 2, (buffering.program requests p 0).waitsOn ∈ setup.conditions q)
    (run : Client.Run serialization setup monitor (buffering.program requests) moves c) (k : ℕ) :
    Inevitable (Client.step serialization monitor (buffering.program requests))
      (fun c m => c.carriesOn m = true)
      (fun c => (c.Throws serialization ∧
        c.Halted serialization monitor (buffering.program requests)) ∨
          ∀ p, k ≤ c.finished p) c := by
  have goes := entries_go_on shares alike restores short exchanges registered run
    (2 * k + buffering.size)
  refine goes.mono (I := fun c => ∃ moves, Client.Run serialization setup monitor
    (buffering.program requests) moves c) ⟨moves, run⟩ ?_ ?_
  · rintro c m c' ⟨moves, run⟩ - moved
    exact ⟨_, .next run trivial moved⟩
  · rintro c ⟨moves, run⟩ (throws | far)
    · exact .inl throws
    obtain ⟨history, a, sequential, -, tracks⟩ := linearized shares alike restores
      (orders_two (Nat.ne_of_lt (short.trans (by decide)))) run
    obtain ⟨values, holds, ahead⟩ := buffering.balanced empty sequential
    have fits := buffering.bounded holds
    rw [tracks.round, tracks.round] at ahead
    rw [Fin.sum_univ_two] at far
    rw [Fin.forall_fin_two]
    right
    omega

theorem Buffering.inside {buffering : Buffering σ ρ} {requests : ℕ → ρ}
    (produces : ∀ request, (buffering.produce request).unlockFirst = false)
    (consumes : buffering.consume.unlockFirst = false) (p : ProcessId n) (k : ℕ) :
    (buffering.program requests p k).unlockFirst = false := by
  unfold Buffering.program
  split_ifs
  · exact produces _
  · exact consumes

theorem Buffering.go_on_inside {buffering : Buffering σ ρ} {requests : ℕ → ρ} {initial : σ}
    {serialization : Serialization σ} {setup : Setup 2 σ} {monitor : MonitorName}
    {c : Client 2 σ ρ} {moves : Trace (Client 2 σ ρ) (Move 2 σ)}
    (empty : buffering.Holds initial []) (shares : ∀ p, setup.monitors p = [monitor])
    (alike : ∀ p, setup.state p monitor.1 = initial)
    (restores : ∀ old state,
      serialization.restoreState monitor old (serialization.saveState monitor state) = state)
    (short : monitor.1.length < 128)
    (exchanges : (buffering.program requests : Program 2 σ ρ).Exchanges initial)
    (registered : ∀ p q : ProcessId 2, (buffering.program requests p 0).waitsOn ∈ setup.conditions q)
    (produces : ∀ request, (buffering.produce request).unlockFirst = false)
    (consumes : buffering.consume.unlockFirst = false)
    (run : Client.Run serialization setup monitor (buffering.program requests) moves c) (k : ℕ) :
    Inevitable (Client.step serialization monitor (buffering.program requests))
      (fun c m => c.carriesOn m = true) (fun c => ∀ p, k ≤ c.finished p) c := by
  have goes := Buffering.go_on empty shares alike restores short exchanges registered run k
  refine goes.mono (I := fun c => ∃ moves, Client.Run serialization setup monitor
    (buffering.program requests) moves c) ⟨moves, run⟩ ?_ ?_
  · rintro c m c' ⟨moves, run⟩ - moved
    exact ⟨_, .next run trivial moved⟩
  · rintro c ⟨moves, run⟩ reached
    exact reached.resolve_left fun halts => entries_handled shares short exchanges registered
      (Buffering.inside produces consumes) run halts.1

def maxQueueSize : ℕ := 5

instance : NeZero maxQueueSize := ⟨by decide⟩

/-- The fields of `BufferMonitor`, whose indices and count are of type `char`. -/
structure BufferMonitor where
  buffer : Fin maxQueueSize → Int8
  getIndex : Int8
  putIndex : Int8
  count : Int8

namespace BufferMonitor

def empty : BufferMonitor := ⟨fun _ => 0, 0, 0, 0⟩

def saveState (m : BufferMonitor) : ByteString :=
  [m.getIndex.toUInt8, m.putIndex.toUInt8, m.count.toUInt8] ++
    (List.ofFn m.buffer).map (·.toUInt8)

/-- The copy goes as far as the data, which `saveState` makes as long as the array. -/
def restoreState (m : BufferMonitor) (state : ByteString) : BufferMonitor where
  getIndex := (state.getD 0 0).toInt8
  putIndex := (state.getD 1 0).toInt8
  count := (state.getD 2 0).toInt8
  buffer i := ((state.drop 3)[i.val]?.map (·.toInt8)).getD (m.buffer i)

def isFull (m : BufferMonitor) : Bool := m.count.toInt == maxQueueSize

def isEmpty (m : BufferMonitor) : Bool := m.count.toInt == 0

/-- `(index + 1) % MAX_QUEUE_SIZE` is computed as an `int` and truncates towards zero. -/
def nextIndex (index : Int8) : Int8 := Int8.ofInt ((index.toInt + 1).tmod maxQueueSize)

/-- `buffer[static_cast<unsigned char>(index)]`, undefined outside the array. -/
def cell (index : Int8) : Option (Fin maxQueueSize) :=
  if inside : index.toUInt8.toNat < maxQueueSize then some ⟨index.toUInt8.toNat, inside⟩ else none

def store : Statement BufferMonitor Int8 := fun (m, request) =>
  (cell m.putIndex).map fun i => ({ m with buffer := Function.update m.buffer i request }, request)

def countUp : Statement BufferMonitor Int8 := fun (m, request) =>
  some ({ m with count := m.count + 1 }, request)

def advancePut : Statement BufferMonitor Int8 := fun (m, request) =>
  some ({ m with putIndex := nextIndex m.putIndex }, request)

def load : Statement BufferMonitor Int8 := fun (m, _) =>
  (cell m.getIndex).map fun i => (m, m.buffer i)

def countDown : Statement BufferMonitor Int8 := fun (m, request) =>
  some ({ m with count := m.count - 1 }, request)

def advanceGet : Statement BufferMonitor Int8 := fun (m, request) =>
  some ({ m with getIndex := nextIndex m.getIndex }, request)

/-- The condition variables that a producer and a consumer wait on, the same one or two. -/
def produce (full empty : CondName) (request : Int8) : Entry BufferMonitor Int8 where
  arguments := request
  waitsOn := full
  ready m := !m.isFull
  body := [store, countUp, advancePut]
  nonempty := by simp
  notifies := empty
  unlockFirst := false

def consume (full empty : CondName) : Entry BufferMonitor Int8 where
  arguments := 0
  waitsOn := empty
  ready m := !m.isEmpty
  body := [load, countDown, advanceGet]
  nonempty := by simp
  notifies := full
  unlockFirst := false

structure Keeps (m : BufferMonitor) (queue : RingQueue Int8 maxQueueSize) : Prop where
  buffer : m.buffer = queue.slots
  getIndex : m.getIndex = Int8.ofNat queue.first
  putIndex : m.putIndex = Int8.ofNat (queue.slot queue.length)
  count : m.count = Int8.ofNat queue.length

theorem restoreState_saveState (m old : BufferMonitor) :
    old.restoreState m.saveState = m := by
  obtain ⟨buffer, getIndex, putIndex, count⟩ := m
  simp [restoreState, saveState]

theorem nextIndex_ofNat : ∀ index : Fin maxQueueSize,
    nextIndex (Int8.ofNat index) = Int8.ofNat ((index + 1) % maxQueueSize) := by
  decide

theorem cell_ofNat : ∀ index : Fin maxQueueSize, cell (Int8.ofNat index) = some index := by
  decide

theorem toInt_ofNat : ∀ count : Fin (maxQueueSize + 1), (Int8.ofNat count).toInt = count := by
  decide

theorem ofNat_succ (count : ℕ) : Int8.ofNat count + 1 = Int8.ofNat (count + 1) :=
  (Int8.ofNat_add count 1).symm

variable {m : BufferMonitor} {queue : RingQueue Int8 maxQueueSize}

theorem Keeps.length (keeps : m.Keeps queue) : m.count.toInt = queue.length := by
  have within := toInt_ofNat ⟨queue.length, Nat.lt_succ_of_le queue.fits⟩
  rw [keeps.count]
  exact within

theorem Keeps.notFull (keeps : m.Keeps queue) :
    (!m.isFull) = true ↔ queue.length < maxQueueSize := by
  have fits := queue.fits
  simp only [isFull, keeps.length, Bool.not_eq_true', beq_eq_false_iff_ne, ne_eq]
  omega

theorem Keeps.notEmpty (keeps : m.Keeps queue) : (!m.isEmpty) = true ↔ 0 < queue.length := by
  simp only [isEmpty, keeps.length, Bool.not_eq_true', beq_eq_false_iff_ne, ne_eq]
  omega

theorem Keeps.produce (keeps : m.Keeps queue) (full empty : CondName) (request : Int8)
    (room : queue.length < maxQueueSize) :
    ∃ m', (BufferMonitor.produce full empty request).run m = some (m', request) ∧
      m'.Keeps (queue.put request room) := by
  have slot : cell m.putIndex = some (queue.slot queue.length) := by
    rw [keeps.putIndex, cell_ofNat]
  have next : nextIndex m.putIndex = Int8.ofNat (queue.slot (queue.length + 1)) := by
    rw [keeps.putIndex, nextIndex_ofNat]
    congr 1
    change ((queue.first + queue.length) % maxQueueSize + 1) % maxQueueSize =
      (queue.first + (queue.length + 1)) % maxQueueSize
    rw [Nat.mod_add_mod, Nat.add_assoc]
  refine ⟨⟨Function.update m.buffer (queue.slot queue.length) request, m.getIndex,
    nextIndex m.putIndex, m.count + 1⟩, ?_, ?_, keeps.getIndex, next, ?_⟩
  · simp [Entry.run, BufferMonitor.produce, store, slot, countUp, advancePut]
  · rw [keeps.buffer]
    rfl
  · rw [keeps.count, ofNat_succ]
    rfl

theorem Keeps.consume (keeps : m.Keeps queue) (full empty : CondName) (some' : 0 < queue.length) :
    ∃ m', (BufferMonitor.consume full empty).run m = some (m', queue.slots queue.first) ∧
      m'.Keeps queue.take := by
  have slot : cell m.getIndex = some queue.first := by
    rw [keeps.getIndex, cell_ofNat]
  refine ⟨⟨m.buffer, nextIndex m.getIndex, m.putIndex, m.count - 1⟩, ?_, keeps.buffer, ?_, ?_, ?_⟩
  · simp [Entry.run, BufferMonitor.consume, load, slot, countDown, advanceGet, keeps.buffer]
  · rw [keeps.getIndex, nextIndex_ofNat]
    rfl
  · rw [keeps.putIndex, queue.slot_take]
    change _ = Int8.ofNat (queue.slot (queue.length - 1 + 1))
    rw [Nat.sub_add_cancel some']
  · rw [keeps.count]
    obtain ⟨length, more⟩ := Nat.exists_eq_add_one.2 some'
    change _ = Int8.ofNat (queue.length - 1)
    rw [more, Nat.add_sub_cancel, ← ofNat_succ]
    exact Int8.add_sub_cancel ..

theorem keeps_empty : empty.Keeps ⟨fun _ => 0, 0, 0, Nat.zero_le _⟩ where
  buffer := rfl
  getIndex := rfl
  putIndex := rfl
  count := rfl

def buffering (full empty : CondName) : Buffering BufferMonitor Int8 where
  produce := BufferMonitor.produce full empty
  consume := BufferMonitor.consume full empty
  size := maxQueueSize
  Holds m values := ∃ queue, m.Keeps queue ∧ queue.contents = values
  bounded := by
    rintro m _ ⟨queue, -, rfl⟩
    rw [queue.length_contents]
    exact queue.fits
  hasRoom := by
    rintro m _ request ⟨queue, keeps, rfl⟩
    rw [queue.length_contents]
    exact keeps.notFull
  hasValue := by
    rintro m _ ⟨queue, keeps, rfl⟩
    rw [← List.length_pos_iff, queue.length_contents]
    exact keeps.notEmpty
  produces := by
    rintro m _ request ⟨queue, keeps, rfl⟩ room
    rw [queue.length_contents] at room
    obtain ⟨m', ran, keeps'⟩ := keeps.produce full empty request room
    exact ⟨m', ran, _, keeps', queue.contents_put request room⟩
  consumes := by
    rintro m value values ⟨queue, keeps, same⟩
    have used : 0 < queue.length := by
      rw [← queue.length_contents, same]
      exact Nat.succ_pos _
    obtain ⟨m', ran, keeps'⟩ := keeps.consume full empty used
    rw [queue.contents_take used] at same
    obtain ⟨rfl, rfl⟩ := List.cons.inj same
    exact ⟨m', ran, _, keeps', rfl⟩

/-- `i = (i + 1) % MAX_QUEUE_SIZE` in the loop of the producers. -/
def request (round : ℕ) : Int8 := nextIndex^[round] 0

def serialization : Serialization BufferMonitor where
  saveState _ := saveState
  restoreState _ := restoreState

def testMon : MonitorName := ⟨[116, 101, 115, 116, 77, 111, 110], by decide⟩

def setup (n : ℕ) (full empty : CondName) : Setup n BufferMonitor where
  mutexes _ := ∅
  conditions _ := {full, empty}
  monitors _ := [testMon]
  state _ _ := BufferMonitor.empty

variable (full empty : CondName)

theorem holds_nothing : (buffering full empty).Holds BufferMonitor.empty [] :=
  ⟨_, keeps_empty, rfl⟩

theorem restores (old state : BufferMonitor) :
    serialization.restoreState testMon old (serialization.saveState testMon state) = state :=
  restoreState_saveState state old

theorem exchanges :
    ((buffering full empty).program request : Program 2 _ _).Exchanges BufferMonitor.empty :=
  Buffering.exchanges (holds_nothing full empty) (show 0 < maxQueueSize by decide) (fun _ => rfl)
    fun _ => rfl

theorem registered (p q : ProcessId 2) :
    ((buffering full empty).program request p 0).waitsOn ∈ (setup 2 full empty).conditions q := by
  revert p
  rw [Fin.forall_fin_two]
  exact ⟨Finset.mem_insert_self .., Finset.mem_insert_of_mem (Finset.mem_singleton_self _)⟩

end BufferMonitor

/-- Two processes of the examples with the array: the consumer gets what the producer has made,
each value once and in order, at most five are on the way, and no index is outside the array. -/
theorem array_delivers (full empty : CondName) {c : Client 2 BufferMonitor Int8}
    {moves : Trace (Client 2 BufferMonitor Int8) (Move 2 BufferMonitor)}
    (run : Client.Run BufferMonitor.serialization (BufferMonitor.setup 2 full empty)
      BufferMonitor.testMon ((BufferMonitor.buffering full empty).program BufferMonitor.request)
      moves c) :
    (BufferMonitor.buffering full empty).Delivers BufferMonitor.request BufferMonitor.testMon
      moves c :=
  Buffering.delivers (BufferMonitor.holds_nothing full empty) (fun p => rfl) (fun p => rfl)
    BufferMonitor.restores (by decide) run

theorem array_delivers_two : ∃ moves c,
    Client.Run BufferMonitor.serialization (BufferMonitor.setup 2 [99] [99]) BufferMonitor.testMon
      ((BufferMonitor.buffering [99] [99]).program BufferMonitor.request) moves c ∧
    returnedBy isConsumer (recorded (Client.returns ((BufferMonitor.buffering [99] [99]).program
      BufferMonitor.request) BufferMonitor.testMon) moves) = [0] ∧
    (BufferMonitor.buffering [99] [99]).Delivers BufferMonitor.request BufferMonitor.testMon
      moves c := by
  obtain ⟨moves, c, run, reached⟩ := exists_execution
    (Client.step BufferMonitor.serialization BufferMonitor.testMon
      ((BufferMonitor.buffering [99] [99]).program BufferMonitor.request))
    (BufferMonitor.setup 2 [99] [99]).client (fun _ _ _ => True) (Move.handOver 1 0 3 3)
    (fun moves _ => returnedBy isConsumer (recorded (Client.returns
      ((BufferMonitor.buffering [99] [99]).program BufferMonitor.request) BufferMonitor.testMon)
        moves) = [0])
    (by decide +kernel)
  exact ⟨moves, c, run, of_decide_eq_true reached, array_delivers [99] [99] run⟩

/-- Any number of processes that produce and consume, when each of them applies the updates of
the others in the order in which they were sent. -/
theorem buffers_deliver_inOrder {buffering : Buffering σ ρ} {requests : ℕ → ρ} {initial : σ}
    {serialization : Serialization σ} {setup : Setup n σ} {monitor : MonitorName}
    {c : Client n σ ρ} {moves : Trace (Client n σ ρ) (Move n σ)}
    (empty : buffering.Holds initial []) (shares : ∀ p, setup.monitors p = [monitor])
    (alike : ∀ p, setup.state p monitor.1 = initial)
    (restores : ∀ old state,
      serialization.restoreState monitor old (serialization.saveState monitor state) = state)
    (run : Client.OrderedRun serialization setup monitor (buffering.program requests) moves c) :
    buffering.Conserves requests monitor moves c :=
  Buffering.conserved empty (fun _ _ run => ordered_current shares alike restores run) run

theorem buffers_deliver_inOrder_three : ∃ moves c,
    Client.OrderedRun BufferMonitor.serialization (BufferMonitor.setup 3 [99] [99])
      BufferMonitor.testMon ((BufferMonitor.buffering [99] [99]).program BufferMonitor.request)
      moves c ∧
    returnedBy isProducer (recorded (Client.returns ((BufferMonitor.buffering [99] [99]).program
      BufferMonitor.request) BufferMonitor.testMon) moves) = [0, 0] ∧
    (BufferMonitor.buffering [99] [99]).Conserves BufferMonitor.request BufferMonitor.testMon
      moves c := by
  obtain ⟨moves, c, run, reached⟩ := exists_execution
    (Client.step BufferMonitor.serialization BufferMonitor.testMon
      ((BufferMonitor.buffering [99] [99]).program BufferMonitor.request))
    (BufferMonitor.setup 3 [99] [99]).client (Client.inOrder BufferMonitor.testMon
      ((BufferMonitor.buffering [99] [99]).program BufferMonitor.request))
    [Move.handOver 1 0 3 3, [.program 1, .program 1, .thread 1 .sendSync, .thread 1 .unlockMonitor,
      .thread 1 .released], Move.tell 1, Move.enter 2, Move.endWait 2,
      List.replicate 3 (.program 2)].flatten
    (fun moves _ => returnedBy isProducer (recorded (Client.returns
      ((BufferMonitor.buffering [99] [99]).program BufferMonitor.request) BufferMonitor.testMon)
        moves) = [0, 0])
    (by decide +kernel)
  exact ⟨moves, c, run, of_decide_eq_true reached, buffers_deliver_inOrder
    (BufferMonitor.holds_nothing [99] [99]) (fun p => rfl) (fun p => rfl) BufferMonitor.restores run⟩

theorem array_delivers_inOrder (full empty : CondName) {c : Client n BufferMonitor Int8}
    {moves : Trace (Client n BufferMonitor Int8) (Move n BufferMonitor)}
    (run : Client.OrderedRun BufferMonitor.serialization (BufferMonitor.setup n full empty)
      BufferMonitor.testMon ((BufferMonitor.buffering full empty).program BufferMonitor.request)
      moves c) :
    (BufferMonitor.buffering full empty).Conserves BufferMonitor.request BufferMonitor.testMon
      moves c :=
  Buffering.conserved (BufferMonitor.holds_nothing full empty)
    (fun _ _ run => ordered_current (fun _ => rfl) (fun _ => rfl) BufferMonitor.restores run) run

/-- The two processes never get stuck: whatever the order of the steps, the producer gets through
any number of rounds and so does the consumer, as long as no thread wakes up unsignalled. -/
theorem array_goes_on (full empty : CondName) {c : Client 2 BufferMonitor Int8}
    {moves : Trace (Client 2 BufferMonitor Int8) (Move 2 BufferMonitor)}
    (run : Client.Run BufferMonitor.serialization (BufferMonitor.setup 2 full empty)
      BufferMonitor.testMon ((BufferMonitor.buffering full empty).program BufferMonitor.request)
      moves c) (k : ℕ) :
    Inevitable (Client.step BufferMonitor.serialization BufferMonitor.testMon
        ((BufferMonitor.buffering full empty).program BufferMonitor.request))
      (fun c m => c.carriesOn m = true) (fun c => ∀ p, k ≤ c.finished p) c := by
  exact Buffering.go_on_inside (BufferMonitor.holds_nothing full empty) (fun p => rfl)
    (fun p => rfl) BufferMonitor.restores (by decide) (BufferMonitor.exchanges full empty)
    (BufferMonitor.registered full empty) (fun _ => rfl) rfl run k

theorem array_goes_on_two : ∃ moves c,
    Client.Run BufferMonitor.serialization (BufferMonitor.setup 2 [99] [99]) BufferMonitor.testMon
      ((BufferMonitor.buffering [99] [99]).program BufferMonitor.request) moves c ∧
    (c.system.process 1).main.asleep [99] = true ∧
    Inevitable (Client.step BufferMonitor.serialization BufferMonitor.testMon
        ((BufferMonitor.buffering [99] [99]).program BufferMonitor.request))
      (fun c m => c.carriesOn m = true) (fun c => ∀ p, 2 ≤ c.finished p) c := by
  obtain ⟨moves, c, run, reached⟩ := exists_execution
    (Client.step BufferMonitor.serialization BufferMonitor.testMon
      ((BufferMonitor.buffering [99] [99]).program BufferMonitor.request))
    (BufferMonitor.setup 2 [99] [99]).client (fun _ _ _ => True) (Move.enter 1)
    (fun _ c => (c.system.process 1).main.asleep [99]) (by decide +kernel)
  exact ⟨moves, c, run, reached, array_goes_on [99] [99] run 2⟩

namespace QueueMonitor

def push : Statement (List ρ) ρ := fun (queue, request) => some (queue ++ [request], request)

/-- Undefined on an empty queue, as `pop` is. -/
def front : Statement (List ρ) ρ := fun (queue, _) => queue.head?.map fun first => (queue, first)

def pop : Statement (List ρ) ρ := fun (queue, request) =>
  match queue with
  | [] => none
  | _ :: rest => some (rest, request)

def produce (full empty : CondName) (maxSize : ℕ) (unlockFirst : Bool) (request : ρ) :
    Entry (List ρ) ρ where
  arguments := request
  waitsOn := full
  ready queue := !(queue.length == maxSize)
  body := [push]
  nonempty := by simp
  notifies := empty
  unlockFirst := unlockFirst

def consume [Inhabited ρ] (full empty : CondName) (unlockFirst : Bool) : Entry (List ρ) ρ where
  arguments := default
  waitsOn := empty
  ready queue := !queue.isEmpty
  body := [front, pop]
  nonempty := by simp
  notifies := full
  unlockFirst := unlockFirst

def buffering (ρ : Type) [Inhabited ρ] (full empty : CondName) (maxSize : ℕ) (unlockFirst : Bool) :
    Buffering (List ρ) ρ where
  produce := QueueMonitor.produce full empty maxSize unlockFirst
  consume := QueueMonitor.consume full empty unlockFirst
  size := maxSize
  Holds queue values := queue = values ∧ values.length ≤ maxSize
  bounded := And.right
  hasRoom := by
    rintro queue _ request ⟨rfl, fits⟩
    simp only [QueueMonitor.produce, Bool.not_eq_true', beq_eq_false_iff_ne]
    omega
  hasValue := by
    rintro queue _ ⟨rfl, -⟩
    simp [QueueMonitor.consume]
  produces := by
    rintro queue _ request ⟨rfl, -⟩ room
    refine ⟨queue ++ [request], rfl, rfl, ?_⟩
    rw [List.length_append]
    exact room
  consumes := by
    rintro _ value values ⟨rfl, fits⟩
    exact ⟨values, rfl, rfl, (Nat.le_succ _).trans fits⟩

def setup (n : ℕ) (ρ : Type) (full empty : CondName) : Setup n (List ρ) where
  mutexes _ := ∅
  conditions _ := {full, empty}
  monitors _ := [BufferMonitor.testMon]
  state _ _ := []

variable [Inhabited ρ] (full empty : CondName) (maxSize : ℕ) (unlockFirst : Bool)

theorem holds_nothing : (buffering ρ full empty maxSize unlockFirst).Holds [] [] :=
  ⟨rfl, Nat.zero_le _⟩

theorem exchanges (room : 0 < maxSize) (requests : ℕ → ρ) :
    ((buffering ρ full empty maxSize unlockFirst).program requests : Program 2 _ _).Exchanges [] :=
  Buffering.exchanges (holds_nothing full empty maxSize unlockFirst) room (fun _ => rfl) fun _ => rfl

theorem registered (requests : ℕ → ρ) (p q : ProcessId 2) :
    ((buffering ρ full empty maxSize unlockFirst).program requests p 0).waitsOn ∈
      (setup 2 ρ full empty).conditions q := by
  revert p
  rw [Fin.forall_fin_two]
  exact ⟨Finset.mem_insert_self .., Finset.mem_insert_of_mem (Finset.mem_singleton_self _)⟩

end QueueMonitor

def bytes : Serialization ByteString where
  saveState _ queue := queue
  restoreState _ _ data := data

/-- The same of the examples with a queue of any type and size, whether they notify before or
after the unlock, as long as the serializer restores what it has saved. -/
theorem queue_delivers [Inhabited ρ] (full empty : CondName) (maxSize : ℕ) (unlockFirst : Bool)
    (requests : ℕ → ρ) (serialization : Serialization (List ρ))
    (restores : ∀ old queue, serialization.restoreState BufferMonitor.testMon old
      (serialization.saveState BufferMonitor.testMon queue) = queue)
    {c : Client 2 (List ρ) ρ} {moves : Trace (Client 2 (List ρ) ρ) (Move 2 (List ρ))}
    (run : Client.Run serialization (QueueMonitor.setup 2 ρ full empty) BufferMonitor.testMon
      ((QueueMonitor.buffering ρ full empty maxSize unlockFirst).program requests) moves c) :
    (QueueMonitor.buffering ρ full empty maxSize unlockFirst).Delivers requests
      BufferMonitor.testMon moves c :=
  Buffering.delivers (QueueMonitor.holds_nothing full empty maxSize unlockFirst) (fun p => rfl)
    (fun p => rfl) restores (by decide) run

theorem queue_delivers_two : ∃ moves c,
    Client.Run bytes (QueueMonitor.setup 2 UInt8 [102] [101]) BufferMonitor.testMon
      ((QueueMonitor.buffering UInt8 [102] [101] 1 false).program fun round => UInt8.ofNat round)
      moves c ∧
    returnedBy isConsumer (recorded (Client.returns ((QueueMonitor.buffering UInt8 [102] [101] 1
      false).program fun round => UInt8.ofNat round) BufferMonitor.testMon) moves) = [0] ∧
    (QueueMonitor.buffering UInt8 [102] [101] 1 false).Delivers (fun round => UInt8.ofNat round)
      BufferMonitor.testMon moves c := by
  obtain ⟨moves, c, run, reached⟩ := exists_execution
    (Client.step bytes BufferMonitor.testMon
      ((QueueMonitor.buffering UInt8 [102] [101] 1 false).program fun round => UInt8.ofNat round))
    (QueueMonitor.setup 2 UInt8 [102] [101]).client (fun _ _ _ => True) (Move.handOver 1 0 1 2)
    (fun moves _ => returnedBy isConsumer (recorded (Client.returns
      ((QueueMonitor.buffering UInt8 [102] [101] 1 false).program fun round => UInt8.ofNat round)
        BufferMonitor.testMon) moves) = [0])
    (by decide +kernel)
  exact ⟨moves, c, run, of_decide_eq_true reached,
    queue_delivers [102] [101] 1 false (fun round => UInt8.ofNat round) bytes (fun _ _ => rfl) run⟩

theorem queue_delivers_inOrder [Inhabited ρ] (full empty : CondName) (maxSize : ℕ)
    (unlockFirst : Bool) (requests : ℕ → ρ) (serialization : Serialization (List ρ))
    (restores : ∀ old queue, serialization.restoreState BufferMonitor.testMon old
      (serialization.saveState BufferMonitor.testMon queue) = queue)
    {c : Client n (List ρ) ρ} {moves : Trace (Client n (List ρ) ρ) (Move n (List ρ))}
    (run : Client.OrderedRun serialization (QueueMonitor.setup n ρ full empty) BufferMonitor.testMon
      ((QueueMonitor.buffering ρ full empty maxSize unlockFirst).program requests) moves c) :
    (QueueMonitor.buffering ρ full empty maxSize unlockFirst).Conserves requests
      BufferMonitor.testMon moves c :=
  Buffering.conserved (QueueMonitor.holds_nothing full empty maxSize unlockFirst)
    (fun _ _ run => ordered_current (fun _ => rfl) (fun _ => rfl) restores run) run

/-- The same with a queue that has room for something, where the notification comes before the
unlock: after it, it may find a process that does not wait any more, and throw there. -/
theorem queue_goes_on [Inhabited ρ] (full empty : CondName) {maxSize : ℕ} (room : 0 < maxSize)
    (requests : ℕ → ρ) (serialization : Serialization (List ρ))
    (restores : ∀ old queue, serialization.restoreState BufferMonitor.testMon old
      (serialization.saveState BufferMonitor.testMon queue) = queue)
    {c : Client 2 (List ρ) ρ} {moves : Trace (Client 2 (List ρ) ρ) (Move 2 (List ρ))}
    (run : Client.Run serialization (QueueMonitor.setup 2 ρ full empty) BufferMonitor.testMon
      ((QueueMonitor.buffering ρ full empty maxSize false).program requests) moves c) (k : ℕ) :
    Inevitable (Client.step serialization BufferMonitor.testMon
        ((QueueMonitor.buffering ρ full empty maxSize false).program requests))
      (fun c m => c.carriesOn m = true) (fun c => ∀ p, k ≤ c.finished p) c := by
  exact Buffering.go_on_inside (QueueMonitor.holds_nothing full empty maxSize false) (fun p => rfl)
    (fun p => rfl) restores (by decide) (QueueMonitor.exchanges full empty maxSize false room _)
    (QueueMonitor.registered full empty maxSize false requests) (fun _ => rfl) rfl run k

theorem queue_goes_on_two : ∃ moves c,
    Client.Run bytes (QueueMonitor.setup 2 UInt8 [102] [101]) BufferMonitor.testMon
      ((QueueMonitor.buffering UInt8 [102] [101] 1 false).program fun round => UInt8.ofNat round)
      moves c ∧
    (c.system.process 1).main.asleep [101] = true ∧
    Inevitable (Client.step bytes BufferMonitor.testMon
        ((QueueMonitor.buffering UInt8 [102] [101] 1 false).program fun round => UInt8.ofNat round))
      (fun c m => c.carriesOn m = true) (fun c => ∀ p, 2 ≤ c.finished p) c := by
  obtain ⟨moves, c, run, reached⟩ := exists_execution
    (Client.step bytes BufferMonitor.testMon
      ((QueueMonitor.buffering UInt8 [102] [101] 1 false).program fun round => UInt8.ofNat round))
    (QueueMonitor.setup 2 UInt8 [102] [101]).client (fun _ _ _ => True) (Move.enter 1)
    (fun _ c => (c.system.process 1).main.asleep [101]) (by decide +kernel)
  exact ⟨moves, c, run, reached, queue_goes_on [102] [101] (by decide)
    (fun round => UInt8.ofNat round) bytes (fun _ _ => rfl) run 2⟩

/-- The example that notifies after the unlock goes on as well, unless it comes to a halt because a
receiving thread has a notification for a wait that is over, and throws. -/
theorem queue_unlocked_goes_on [Inhabited ρ] (full empty : CondName) {maxSize : ℕ}
    (room : 0 < maxSize) (requests : ℕ → ρ) (serialization : Serialization (List ρ))
    (restores : ∀ old queue, serialization.restoreState BufferMonitor.testMon old
      (serialization.saveState BufferMonitor.testMon queue) = queue)
    {c : Client 2 (List ρ) ρ} {moves : Trace (Client 2 (List ρ) ρ) (Move 2 (List ρ))}
    (run : Client.Run serialization (QueueMonitor.setup 2 ρ full empty) BufferMonitor.testMon
      ((QueueMonitor.buffering ρ full empty maxSize true).program requests) moves c) (k : ℕ) :
    Inevitable (Client.step serialization BufferMonitor.testMon
        ((QueueMonitor.buffering ρ full empty maxSize true).program requests))
      (fun c m => c.carriesOn m = true)
      (fun c => (c.Throws serialization ∧ c.Halted serialization BufferMonitor.testMon
        ((QueueMonitor.buffering ρ full empty maxSize true).program requests)) ∨
          ∀ p, k ≤ c.finished p) c := by
  exact Buffering.go_on (QueueMonitor.holds_nothing full empty maxSize true) (fun p => rfl)
    (fun p => rfl) restores (by decide) (QueueMonitor.exchanges full empty maxSize true room _)
    (QueueMonitor.registered full empty maxSize true requests) run k

theorem queue_unlocked_goes_on_two : ∃ moves c,
    Client.Run bytes (QueueMonitor.setup 2 UInt8 [99] [99]) BufferMonitor.testMon
      ((QueueMonitor.buffering UInt8 [99] [99] 5 true).program fun round => UInt8.ofNat round)
      moves c ∧
    (c.system.process 1).main.asleep [99] = true ∧
    Inevitable (Client.step bytes BufferMonitor.testMon
        ((QueueMonitor.buffering UInt8 [99] [99] 5 true).program fun round => UInt8.ofNat round))
      (fun c m => c.carriesOn m = true)
      (fun c => (c.Throws bytes ∧ c.Halted bytes BufferMonitor.testMon
        ((QueueMonitor.buffering UInt8 [99] [99] 5 true).program fun round => UInt8.ofNat round)) ∨
          ∀ p, 2 ≤ c.finished p) c := by
  obtain ⟨moves, c, run, reached⟩ := exists_execution
    (Client.step bytes BufferMonitor.testMon
      ((QueueMonitor.buffering UInt8 [99] [99] 5 true).program fun round => UInt8.ofNat round))
    (QueueMonitor.setup 2 UInt8 [99] [99]).client (fun _ _ _ => True) (Move.enter 1)
    (fun _ c => (c.system.process 1).main.asleep [99]) (by decide +kernel)
  exact ⟨moves, c, run, reached, queue_unlocked_goes_on [99] [99] (by decide)
    (fun round => UInt8.ofNat round) bytes (fun _ _ => rfl) run 2⟩

/-- The producer has left and chosen the consumer, which finds a value and ends its wait before
it is notified. -/
theorem queue_unlocked_throws : ∃ moves c,
    Client.Run bytes (QueueMonitor.setup 2 UInt8 [99] [99]) BufferMonitor.testMon
      ((QueueMonitor.buffering UInt8 [99] [99] 5 true).program fun round => UInt8.ofNat round)
      moves c ∧ c.Throws bytes := by
  obtain ⟨moves, c, run, reached⟩ := exists_execution
    (Client.step bytes BufferMonitor.testMon
      ((QueueMonitor.buffering UInt8 [99] [99] 5 true).program fun round => UInt8.ofNat round))
    (QueueMonitor.setup 2 UInt8 [99] [99]).client (fun _ _ _ => True)
    [Move.enter 0, Move.endWait 0, [.program 0, .program 0, .thread 0 .sendSync,
      .thread 0 .unlockMonitor, .thread 0 .released], Move.tell 0, Move.enter 1, [.program 0],
      Move.endWait 1, [.thread 0 .sendNotify, .thread 1 (.receive 0)]].flatten
    (fun _ c => (c.system.process 1).unhandled bytes 1 [99]) (by decide +kernel)
  exact ⟨moves, c, run, 1, [99], reached⟩

end DistributedMonitor
