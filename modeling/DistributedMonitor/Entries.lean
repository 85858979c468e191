import DistributedMonitor.Atomicity

/-! Programs made of the entries of one monitor, as the examples write them: lock through the
helper, wait, go through the body statement by statement, notify and leave. Seen from outside,
every entry is one step of a sequential machine. -/

namespace DistributedMonitor
open Library

/-- A statement of a body works on the state and the local variables. One without a result is
left undefined by the language, and nothing comes after it. -/
abbrev Statement (σ ρ : Type) := σ × ρ → Option (σ × ρ)

structure Entry (σ ρ : Type) where
  arguments : ρ
  waitsOn : CondName
  ready : σ → Bool
  body : List (Statement σ ρ)
  /-- What an entry returns is what its variables hold at the end of the body. -/
  nonempty : body ≠ []
  notifies : CondName
  /-- The helper is destroyed before the condition variable is notified. -/
  unlockFirst : Bool

/-- The entry that a process calls in each round of its loop. -/
abbrev Program (n : ℕ) (σ ρ : Type) := ProcessId n → ℕ → Entry σ ρ

/-- What a program comes to next in its entry. -/
inductive Position (ρ : Type) where
  | lock
  | wait
  | body (done : ℕ) (locals : ρ)
  | notify
  | leave

variable {n : ℕ} {σ ρ : Type}

def Entry.afterBody (entry : Entry σ ρ) : Position ρ :=
  if entry.unlockFirst then .leave else .notify

def Entry.next (monitor : MonitorName) (entry : Entry σ ρ) (state : σ) :
    Position ρ → Option (Action n σ × Position ρ)
  | .lock => some (.lock monitor.1, .wait)
  | .wait => some (.wait entry.waitsOn monitor.1 entry.ready, .body 0 entry.arguments)
  | .body done locals => do
      let statement ← entry.body[done]?
      let (state, locals) ← statement (state, locals)
      some (.assign monitor.1 state,
        if done + 1 < entry.body.length then .body (done + 1) locals else entry.afterBody)
  | .notify => some (.notifyOne entry.notifies, if entry.unlockFirst then .lock else .leave)
  | .leave => some (.leave monitor, if entry.unlockFirst then .notify else .lock)

def Action.isCall : Action n σ → Bool
  | .registerMutex _ | .unregisterMutex _ | .registerCV _ | .unregisterCV _ | .assign _ _
  | .lock _ | .unlock _ | .wait _ _ _ | .notifyOne _ | .notifyAll _ | .leave _ => true
  | _ => false

structure Client (n : ℕ) (σ ρ : Type) where
  system : System n σ
  position : ProcessId n → Position ρ
  round : ProcessId n → ℕ

inductive Move (n : ℕ) (σ : Type) where
  | program (p : ProcessId n)
  | thread (p : ProcessId n) (action : Action n σ)

def Position.isLock : Position ρ → Bool
  | .lock => true
  | _ => false

def Client.next (monitor : MonitorName) (program : Program n σ ρ) (c : Client n σ ρ)
    (p : ProcessId n) : Option (Action n σ × Position ρ) :=
  (program p (c.round p)).next monitor ((c.system.process p).state monitor.1) (c.position p)

def Client.step (serialization : Serialization σ) (monitor : MonitorName) (program : Program n σ ρ)
    (c : Client n σ ρ) : Move n σ → Option (Client n σ ρ)
  | .program p => do
      let (action, position) ← c.next monitor program p
      let system ← DistributedMonitor.step .simple serialization c.system (p, action)
      some
        { system
          position := Function.update c.position p position
          round := if position.isLock then Function.update c.round p (c.round p + 1) else c.round }
  | .thread p action =>
      if action.isCall then none
      else (DistributedMonitor.step .simple serialization c.system (p, action)).map
        fun system => { c with system }

def Client.event (monitor : MonitorName) (program : Program n σ ρ) (c : Client n σ ρ) :
    Move n σ → Option (Event n σ)
  | .program p => (c.next monitor program p).map fun next => (p, next.1)
  | .thread p action => some (p, action)

def Client.systemTrace (monitor : MonitorName) (program : Program n σ ρ) :
    Trace (Client n σ ρ) (Move n σ) → Trace (System n σ) (Event n σ) :=
  recorded fun c m => (c.event monitor program m).map (c.system, ·)

def Setup.client (setup : Setup n σ) : Client n σ ρ where
  system := setup.system
  position _ := .lock
  round _ := 0

/-- What an entry returns, when it comes to the end of its body. -/
def Client.returns (program : Program n σ ρ) (monitor : MonitorName) (c : Client n σ ρ) :
    Move n σ → Option (ProcessId n × ρ)
  | .program p =>
      match c.position p with
      | .body done locals =>
          if done + 1 = (program p (c.round p)).body.length then do
            let statement ← (program p (c.round p)).body[done]?
            let (_, locals) ← statement ((c.system.process p).state monitor.1, locals)
            some (p, locals)
          else none
      | _ => none
  | .thread _ _ => none

def Entry.run (entry : Entry σ ρ) (state : σ) : Option (σ × ρ) :=
  entry.body.foldlM (fun locals statement => statement locals) (state, entry.arguments)

structure Sequential (n : ℕ) (σ : Type) where
  state : σ
  round : ProcessId n → ℕ

/-- A process whose predicate is true goes through its whole entry. -/
def Sequential.step (program : Program n σ ρ) (a : Sequential n σ) (p : ProcessId n) :
    Option (Sequential n σ) :=
  if (program p (a.round p)).ready a.state then
    ((program p (a.round p)).run a.state).map fun after =>
      ⟨after.1, Function.update a.round p (a.round p + 1)⟩
  else none

def Sequential.returns (program : Program n σ ρ) (a : Sequential n σ) (p : ProcessId n) :
    Option (ProcessId n × ρ) :=
  ((program p (a.round p)).run a.state).map fun after => (p, after.2)

abbrev Sequential.Run (program : Program n σ ρ) (initial : σ) :
    Trace (Sequential n σ) (ProcessId n) → Sequential n σ → Prop :=
  Execution (Sequential.step program) (· = ⟨initial, fun _ => 0⟩) fun _ _ _ => True

abbrev Client.Run (serialization : Serialization σ) (setup : Setup n σ) (monitor : MonitorName)
    (program : Program n σ ρ) : Trace (Client n σ ρ) (Move n σ) → Client n σ ρ → Prop :=
  Execution (Client.step serialization monitor program) (· = setup.client) fun _ _ _ => True

inductive Call (σ : Type) where
  | lock (mutexName : MutexName)
  | unlock (mutexName : MutexName)
  | wait (call : WaitCall σ)
  | notify
  | leave (monitor : MonitorName)

def Caller.callOr (own : Call σ) : Caller σ → Call σ
  | .program => own
  | .wait call => .wait call

def MainThread.call : MainThread n σ → Option (Call σ)
  | .running => none
  | .queueing name _ _ caller | .collecting name _ _ caller => some (caller.callOr (.lock name))
  | .releasing name _ caller => some (caller.callOr (.unlock name))
  | .announcing call | .checking call | .blocked call _ | .stopped call | .ending call _ _
  | .confirming call _ _ => some (.wait call)
  | .notifying _ _ => some .notify
  | .saved monitor _ | .synced monitor => some (.leave monitor)

variable {communicator : Communicator} {serialization : Serialization σ} {setup : Setup n σ}
  {contract : Permission (System n σ) (Event n σ)} {self p q : ProcessId n}
  {monitors : List MonitorName} {process process' : Process n σ} {action : Action n σ}
  {consumed : Option (Packet n)} {sent : List (Envelope n)} {monitor : MonitorName} {initial : σ}
  {entry entry' : Entry σ ρ} {position position' : Position ρ} {program : Program n σ ρ}
  {trace : Trace (System n σ) (Event n σ)} {s s' : System n σ} {e : Event n σ}

theorem call_running {main : MainThread n σ} : main.call = none ↔ main = .running := by
  cases main <;> simp [MainThread.call]

theorem call_signal (main : MainThread n σ) (condName : CondName) :
    (main.signal condName).call = main.call :=
  read_signal MainThread.call (fun _ _ _ => rfl) main condName

theorem call_confirm (main : MainThread n σ) (condName : CondName) (packet : Packet n) :
    (main.confirm condName packet).call = main.call :=
  read_confirm MainThread.call (fun _ _ _ _ => rfl) (fun _ _ _ _ => rfl) main condName

theorem call_unlock (process : Process n σ) (name : MutexName) (call : WaitCall σ) :
    (process.unlock name (.wait call)).main.call = some (.wait call) :=
  read_unlock MainThread.call rfl rfl

inductive CallStep (process process' : Process n σ) : Prop where
  | stays (same : process'.main.call = process.main.call)
      (owned : process'.owned = process.owned ∨ ∃ call, process.main.call = some (.wait call))
  | locked {name : MutexName} (call : process.main.call = some (.lock name))
      (back : process'.main = .running)
      (owned : process'.owned = Function.update process.owned name true)
  | waited {call : WaitCall σ} {id : SubscriptionId} {received : PacketSet n}
      (main : process.main = .confirming call id received) (back : process'.main = .running)
      (owned : process'.owned = process.owned) (state : process'.state = process.state)
  | notified (call : process.main.call = some .notify) (back : process'.main = .running)
      (owned : process'.owned = process.owned)
  | left {monitor : MonitorName} (call : process.main.call = some (.leave monitor))
      (unlocks : process'.main.call = some (.unlock monitor.1))
  | unowned {monitor : MonitorName} (call : process.main.call = some (.leave monitor))
      (free : process.owned monitor.1 = false) (back : process'.main = .running)
      (owned : process'.owned = process.owned)
  | unlocked {name : MutexName} (call : process.main.call = some (.unlock name))
      (back : process'.main = .running)
      (owned : process'.owned = Function.update process.owned name false)

theorem isCall_of_configures (configures : action.configures = true) : action.isCall = true := by
  cases action <;> first | rfl | cases configures

theorem callStep (internal : action.isCall = false)
    (does : ThreadStep serialization self monitors process action consumed process' sent) :
    CallStep process process' := by
  cases does with
  | main does =>
    cases does with
    | configured called =>
      rw [isCall_of_configures called] at internal
      cases internal
    | notify called => rcases called with rfl | rfl <;> cases internal
    | assign | lock | unlock | wait | leave => cases internal
    | queue here | answerDeferred here => exact .stays (by rw [here]; rfl) (.inl rfl)
    | @acquired name id received caller here =>
      cases caller with
      | program => exact .locked (by rw [here]; rfl) rfl rfl
      | wait call => exact .stays (by rw [here]; rfl) (.inr ⟨call, by rw [here]; rfl⟩)
    | @released name unanswered caller here =>
      cases caller with
      | program => exact .unlocked (by rw [here]; rfl) rfl rfl
      | wait call => exact .stays (by rw [here]; rfl) (.inr ⟨call, by rw [here]; rfl⟩)
    | announce here | stop here | wake here | subscribeConfirmations here | announceEnd here =>
      exact .stays (by rw [here]; rfl) (.inl rfl)
    | @retry call here =>
      exact .stays (by rw [here, call_unlock]; rfl) (.inr ⟨call, by rw [here]; rfl⟩)
    | waitReturns here => exact .waited here rfl rfl rfl
    | sendNotify here => exact .notified (by rw [here]; rfl) rfl rfl
    | sendSync here => exact .stays (by rw [here]; rfl) (.inl rfl)
    | @unlockMonitor monitor here =>
      have call : process.main.call = some (.leave monitor) := by rw [here]; rfl
      unfold Process.unlock Process.isOwned
      split_ifs with owned
      · exact .left call rfl
      · exact .unowned call (Bool.eq_false_of_not_eq_true owned) rfl rfl
  | dispatch received free dispatches does =>
    cases does with
    | early type here | counted type here => exact .stays (by rw [here]; rfl) (.inl rfl)
    | notified => exact .stays (call_signal ..) (.inl rfl)
    | confirmed => exact .stays (call_confirm ..) (.inl rfl)
    | _ => exact .stays rfl (.inl rfl)

def Position.inside (unlockFirst : Bool) : Position ρ → Bool
  | .lock => false
  | .wait | .body _ _ | .leave => true
  | .notify => !unlockFirst

/-- The main thread is back in the program, or in the call that the program came to before. -/
def Entry.At (monitor : MonitorName) (entry : Entry σ ρ) (process : Process n σ)
    (position : Position ρ) : Prop :=
  match process.main.call with
  | none => process.owned monitor.1 = position.inside entry.unlockFirst ∧
      ∀ locals, position = .body 0 locals →
        locals = entry.arguments ∧ entry.ready (process.state monitor.1) = true
  | some (.lock name) => name = monitor.1 ∧ position = .wait
  | some (.wait call) => call.mutex = monitor.1 ∧ call.predicate = entry.ready ∧
      call.condName = entry.waitsOn ∧ position = .body 0 entry.arguments
  | some .notify => process.owned monitor.1 = position.inside entry.unlockFirst ∧
      ∀ done locals, position ≠ .body done locals
  | some (.leave other) => other = monitor ∧ position.inside entry.unlockFirst = false
  | some (.unlock name) => name = monitor.1 ∧ position.inside entry.unlockFirst = false

namespace Entry.At

theorem of_body {done : ℕ} {locals : ρ} (here : entry.At monitor process (.body done locals))
    (started : 0 < done) : process.main = .running ∧ process.owned monitor.1 = true := by
  unfold Entry.At at here
  split at here
  next back => exact ⟨call_running.1 back, here.1⟩
  next => cases here.2
  next =>
    cases here.2.2.2
    cases started
  next => exact absurd rfl (here.2 done locals)
  next => cases here.2
  next => cases here.2

theorem of_running (here : entry.At monitor process position) (main : process.main = .running) :
    process.owned monitor.1 = position.inside entry.unlockFirst ∧
      ∀ locals, position = .body 0 locals →
        locals = entry.arguments ∧ entry.ready (process.state monitor.1) = true := by
  unfold Entry.At at here
  rwa [call_running.2 main] at here

theorem back_outside (main : process.main = .running)
    (owned : process.owned monitor.1 = position.inside entry.unlockFirst)
    (outside : ∀ done locals, position ≠ .body done locals) : entry.At monitor process position := by
  unfold Entry.At
  rw [call_running.2 main]
  exact ⟨owned, fun locals body => absurd body (outside 0 locals)⟩

theorem not_body (outside : position.inside entry.unlockFirst = false) (done : ℕ) (locals : ρ) :
    position ≠ .body done locals := by
  rintro rfl
  cases outside

theorem step (here : entry.At monitor process position) (own : process.Owning)
    (ended : ∀ call, process.main.ended? = some call →
      call.predicate (process.state call.mutex) = true)
    (unmoved : process.holds monitor.1 = true → process'.state monitor.1 = process.state monitor.1)
    (does : CallStep process process') : entry.At monitor process' position := by
  cases does with
  | stays same owned =>
    rcases owned with owned | ⟨call, waits⟩
    · unfold Entry.At at here ⊢
      rw [same]
      split at here
      next back =>
        refine ⟨owned ▸ here.1, fun locals body => ?_⟩
        have inside : process.owned monitor.1 = true := by
          rw [here.1, body]
          rfl
        rw [unmoved (holds_iff.2 ⟨inside, by rw [call_running.1 back]; exact nofun⟩)]
        exact here.2 locals body
      next => exact here
      next => exact here
      next => exact ⟨owned ▸ here.1, here.2⟩
      next => exact here
      next => exact here
    · unfold Entry.At at here ⊢
      rw [waits] at here same
      rw [same]
      exact here
  | locked locks back owned =>
    unfold Entry.At at here
    rw [locks] at here
    obtain ⟨rfl, rfl⟩ := here
    exact back_outside back (by rw [owned, Function.update_self]; rfl) nofun
  | @waited call id received main back owned state =>
    have waits : process.main.call = some (.wait call) := by rw [main]; rfl
    have held := own.main
    have holds := ended call (by rw [main]; rfl)
    unfold Entry.At at here ⊢
    rw [waits] at here
    obtain ⟨mutex, predicate, -, rfl⟩ := here
    rw [main] at held
    change process.owned call.mutex = true at held
    rw [call_running.2 back, owned, ← mutex, held, state]
    refine ⟨rfl, ?_⟩
    rintro locals ⟨⟩
    exact ⟨rfl, predicate ▸ holds⟩
  | notified notifies back owned =>
    unfold Entry.At at here
    rw [notifies] at here
    exact back_outside back (owned ▸ here.1) here.2
  | left leaves unlocks =>
    unfold Entry.At at here ⊢
    rw [leaves] at here
    rw [unlocks]
    exact ⟨congrArg Subtype.val here.1, here.2⟩
  | unowned leaves free back owned =>
    unfold Entry.At at here
    rw [leaves] at here
    obtain ⟨rfl, outside⟩ := here
    exact back_outside back (by rw [owned, free, outside]) (not_body outside)
  | unlocked unlocks back owned =>
    unfold Entry.At at here
    rw [unlocks] at here
    obtain ⟨rfl, outside⟩ := here
    exact back_outside back (by rw [owned, Function.update_self, outside]) (not_body outside)

theorem called (here : entry.At monitor process position)
    (next : entry.next monitor (process.state monitor.1) position = some (action, position'))
    (does : ThreadStep serialization self monitors process action consumed process' sent)
    (same : position'.isLock = false → entry' = entry) : entry'.At monitor process' position' := by
  cases position with
  | lock =>
    cases next
    cases does with
    | main does =>
      cases does with
      | configured called => cases called
      | notify called => rcases called with called | called <;> cases called
      | lock main => exact ⟨rfl, rfl⟩
  | wait =>
    cases next
    rw [same rfl]
    cases does with
    | main does =>
      cases does with
      | configured called => cases called
      | notify called => rcases called with called | called <;> cases called
      | wait main owned => exact ⟨rfl, rfl, rfl, rfl⟩
  | body done locals =>
    obtain ⟨statement, -, next⟩ := Option.bind_eq_some_iff.1 next
    obtain ⟨⟨state, locals'⟩, -, next⟩ := Option.bind_eq_some_iff.1 next
    simp only [Option.some.injEq, Prod.mk.injEq] at next
    obtain ⟨rfl, after⟩ := next
    have inside : position'.inside entry.unlockFirst = true ∧ position'.isLock = false ∧
        ∀ locals, position' ≠ .body 0 locals := by
      rw [← after]
      unfold Entry.afterBody
      split_ifs with more first
      · exact ⟨rfl, rfl, by simp⟩
      · exact ⟨by rw [first]; rfl, rfl, nofun⟩
      · exact ⟨by simp [Position.inside, first], rfl, nofun⟩
    rw [same inside.2.1]
    cases does with
    | main does =>
      cases does with
      | configured called => cases called
      | notify called => rcases called with called | called <;> cases called
      | assign main =>
        unfold Entry.At
        rw [call_running.2 main, inside.1]
        exact ⟨(here.of_running main).1, fun locals body => absurd body (inside.2.2 locals)⟩
  | notify =>
    simp only [Entry.next, Option.some.injEq, Prod.mk.injEq] at next
    obtain ⟨rfl, after⟩ := next
    have outside : position'.inside entry'.unlockFirst = !entry.unlockFirst ∧
        ∀ done locals, position' ≠ .body done locals := by
      split_ifs at after with first
      · subst after
        exact ⟨by rw [first]; rfl, nofun⟩
      · subst after
        exact ⟨by simp [Position.inside, first], nofun⟩
    cases does with
    | main does =>
      cases does with
      | configured called => cases called
      | notify called main kept picked =>
        have owned := (here.of_running main).1
        rcases picked with rfl | ⟨recipients, rfl, -⟩
        · exact back_outside main (owned.trans outside.1.symm) outside.2
        · exact ⟨owned.trans outside.1.symm, outside.2⟩
  | leave =>
    simp only [Entry.next, Option.some.injEq, Prod.mk.injEq] at next
    obtain ⟨rfl, after⟩ := next
    cases does with
    | main does =>
      cases does with
      | configured called => cases called
      | notify called => rcases called with called | called <;> cases called
      | leave main =>
        refine ⟨rfl, ?_⟩
        split_ifs at after with first
        · subst after
          rw [same rfl, first]
          rfl
        · subst after
          rfl

end Entry.At

def waitsFirst (monitor : MonitorName) (initial : σ) : Permission (System n σ) (Event n σ) :=
  fun trace s e => entriesThatWait monitor s e = true ∧ BlocksUnchanged monitor initial trace s e

theorem waitsFirst_enters (trace : Trace (System n σ) (Event n σ)) (s : System n σ)
    (e : Event n σ) (may : waitsFirst monitor initial trace s e) : entersMonitors s e = true :=
  entries_enter (fun _ _ _ may => And.left may) trace s e may

inductive Client.Does (serialization : Serialization σ) (monitor : MonitorName)
    (program : Program n σ ρ) (c : Client n σ ρ) : Move n σ → Event n σ → Client n σ ρ → Prop where
  | program {p : ProcessId n} {action : Action n σ} {position : Position ρ} {system : System n σ}
      (next : c.next monitor program p = some (action, position))
      (taken : DistributedMonitor.step .simple serialization c.system (p, action) = some system) :
      Does serialization monitor program c (.program p) (p, action)
        { system
          position := Function.update c.position p position
          round := if position.isLock then Function.update c.round p (c.round p + 1) else c.round }
  | thread {p : ProcessId n} {action : Action n σ} {system : System n σ}
      (internal : action.isCall = false)
      (taken : DistributedMonitor.step .simple serialization c.system (p, action) = some system) :
      Does serialization monitor program c (.thread p action) (p, action) { c with system }

variable {c c' : Client n σ ρ} {m : Move n σ} {moves : Trace (Client n σ ρ) (Move n σ)}

theorem client_does (moved : c.step serialization monitor program m = some c') :
    ∃ e, c.event monitor program m = some e ∧ c.Does serialization monitor program m e c' := by
  cases m with
  | program p =>
    obtain ⟨⟨action, position⟩, next, moved⟩ := Option.bind_eq_some_iff.1 moved
    obtain ⟨system, taken, moved⟩ := Option.bind_eq_some_iff.1 moved
    cases moved
    exact ⟨(p, action), by rw [Client.event, next]; rfl, .program next taken⟩
  | thread p action =>
    simp only [Client.step] at moved
    split_ifs at moved with called
    obtain ⟨system, taken, rfl⟩ := Option.map_eq_some_iff.1 moved
    exact ⟨(p, action), rfl, .thread (Bool.eq_false_of_not_eq_true called) taken⟩

theorem Client.Does.taken (does : c.Does serialization monitor program m e c') :
    DistributedMonitor.step .simple serialization c.system e = some c'.system := by
  cases does with
  | program next taken | thread internal taken => exact taken

theorem systemTrace_cons (event : c.event monitor program m = some e) :
    Client.systemTrace monitor program ((c, m) :: moves) =
      (c.system, e) :: Client.systemTrace monitor program moves :=
  recorded_some (by rw [event]; rfl)

theorem next_isCall {state : σ} (next : entry.next monitor state position = some (action, position')) :
    action.isCall = true := by
  cases position with
  | body done locals =>
    obtain ⟨statement, -, next⟩ := Option.bind_eq_some_iff.1 next
    obtain ⟨after, -, next⟩ := Option.bind_eq_some_iff.1 next
    cases next
    rfl
  | _ => cases next; rfl

theorem call_main (called : action.isCall = true)
    (taken : step communicator serialization s (self, action) = some s') :
    (s.process self).main = .running := by
  obtain ⟨outcome, acts, -⟩ := step_act (by rintro source rfl; cases called) taken
  cases action with
  | wait condName mutex predicate =>
    obtain ⟨_, called, -⟩ := Option.bind_eq_some_iff.1 acts
    exact (call_some called).1
  | registerMutex | unregisterMutex | registerCV | unregisterCV | assign | lock | unlock | notifyOne
  | notifyAll | leave => exact (call_some acts).1
  | _ => cases called

theorem held_before (wf : s.WellFormed setup)
    (taken : step communicator serialization s (self, action) = some s') (other : action ≠ .acquired)
    (holds : (s'.process self).holds monitor.1 = true) :
    (s.process self).holds monitor.1 = true := by
  cases systemStep wf taken with
  | receive | updateTimestamp =>
    simp only [System.update, Function.update_self] at holds
    exact holds
  | acts does =>
    rw [System.update_own] at holds
    exact (holds_step does holds).resolve_right fun acquires => other acquires.1

theorem obtained_step (entries : ∀ trace s (e : Event n σ), contract trace s e →
      entriesThatWait monitor s e = true)
    (run : Run .simple serialization setup contract trace s)
    (taken : step .simple serialization s e = some s')
    (got : (s.process p).holds monitor.1 = true →
      (s.process p).state monitor.1 = obtained monitor initial p trace)
    (unassigned : e.1 = p → ∀ state, e.2 ≠ .assign monitor.1 state)
    (holds : (s'.process p).holds monitor.1 = true) :
    (s'.process p).state monitor.1 = obtained monitor initial p ((s, e) :: trace) := by
  have enters := entries_enter entries
  by_cases mine : p = e.1
  · subst mine
    have elsewhere : (s.process e.1).holds monitor.1 = true →
        (s.process e.1).main.collecting? ≠ some monitor.1 := by
      intro before collects
      have owned := (holds_iff.1 before).1
      rw [acquiring_unowned (enters_once enters) run _ (acquiring_of_collecting collects)] at owned
      cases owned
    cases systemStep (wellFormed_run run) taken with
    | receive | updateTimestamp =>
      simp only [System.update, Function.update_self] at holds ⊢
      rw [obtained_none (obtainedWith_none (.inl (by simp)))]
      exact got holds
    | @acts self action consumed process' sent does =>
      rw [System.update_own] at holds ⊢
      rcases holds_step does holds with before | ⟨rfl, collects⟩
      · rw [obtained_none (obtainedWith_none (.inr (elsewhere before))), ← got before]
        cases does with
        | main does =>
          rcases state_step (.main does : ThreadStep serialization self [] _ _ _ _ _)
              (fun _ absent => by cases absent) with
            same | ⟨name, state, rfl, -, rfl⟩
          · rw [same]
          · exact Function.update_of_ne (fun same => unassigned rfl state (by rw [same])) ..
        | dispatch received free dispatches does => exact state_of_holder enters run before received does
      · have shows : obtainedWith monitor self s (self, .acquired) =
            some ((s.process self).state monitor.1) := if_pos ⟨rfl, collects⟩
        rw [obtained, recorded_some shows]
        cases does with
        | main does =>
          cases does with
          | configured called => cases called
          | notify called => rcases called with called | called <;> cases called
          | acquired => rfl
  · have same : s'.process p = s.process p := by
      cases systemStep (wellFormed_run run) taken <;> exact Function.update_of_ne mine ..
    rw [same] at holds ⊢
    rw [obtained_none (obtainedWith_other (Ne.symm mine))]
    exact got holds

theorem state_internal (entries : ∀ trace s (e : Event n σ), contract trace s e →
      entriesThatWait monitor s e = true)
    (run : Run .simple serialization setup contract trace s)
    (holds : (s.process self).holds monitor.1 = true) (internal : action.isCall = false)
    (does : ThreadStep serialization self (setup.monitors self) (s.process self) action consumed
      process' sent) : process'.state monitor.1 = (s.process self).state monitor.1 := by
  cases does with
  | main does =>
    rcases state_step (.main does : ThreadStep serialization self [] _ _ _ _ _) nofun with
      same | ⟨name, state, rfl, -⟩
    · rw [same]
    · cases internal
  | dispatch received free dispatches does =>
    exact state_of_holder (entries_enter entries) run holds received does

def Position.fresh : Position ρ → Bool
  | .wait | .body 0 _ => true
  | _ => false

structure Client.Sound (setup : Setup n σ) (serialization : Serialization σ)
    (monitor : MonitorName) (initial : σ) (program : Program n σ ρ)
    (moves : Trace (Client n σ ρ) (Move n σ)) (c : Client n σ ρ) : Prop where
  run : DistributedMonitor.Run .simple serialization setup (waitsFirst monitor initial)
    (Client.systemTrace monitor program moves) c.system
  here : ∀ p, (program p (c.round p)).At monitor (c.system.process p) (c.position p)
  fresh : ∀ p, (c.position p).fresh = true → (c.system.process p).holds monitor.1 = true →
    (c.system.process p).state monitor.1 =
      obtained monitor initial p (Client.systemTrace monitor program moves)

theorem blocksIn_evaluates (blocks : blocksIn monitor s (self, action) = true) :
    action = .evaluate := by
  unfold blocksIn at blocks
  split at blocks
  next call evaluate main => exact evaluate
  next => cases blocks

namespace Client.Sound

variable (sound : c.Sound setup serialization monitor initial program moves)
include sound

theorem may (does : c.Does serialization monitor program m e c') :
    waitsFirst monitor initial (systemTrace monitor program moves) c.system e := by
  cases does with
  | @program p action position system next taken =>
    have called := next_isCall next
    obtain ⟨owned, -⟩ := (sound.here p).of_running (call_main called taken)
    constructor
    · unfold Client.next at next
      cases here : c.position p with
      | lock =>
        rw [here] at next owned
        cases next
        exact congrArg (!·) owned
      | body done locals =>
        rw [here] at next owned
        obtain ⟨statement, -, next⟩ := Option.bind_eq_some_iff.1 next
        obtain ⟨after, -, next⟩ := Option.bind_eq_some_iff.1 next
        cases next
        exact decide_eq_true (.inr owned)
      | leave =>
        rw [here] at next owned
        cases next
        exact decide_eq_true ⟨rfl, owned⟩
      | wait | notify =>
        rw [here] at next
        cases next
        rfl
    · intro blocks
      rw [blocksIn_evaluates blocks] at called
      cases called
  | @thread p action system internal taken =>
    constructor
    · cases action <;> first | rfl | cases internal
    · intro blocks
      have own := (owning_run sound.run p).main
      have here := sound.here p
      unfold blocksIn at blocks
      split at blocks
      next call evaluate main =>
        unfold Entry.At at here
        rw [main] at here own
        obtain ⟨mutex, -, -, body⟩ := here
        change (c.system.process p).owned call.mutex = true at own
        rw [mutex] at own
        exact sound.fresh p (by rw [body]; rfl) (holds_iff.2 ⟨own, by rw [main]; exact nofun⟩)
      next => cases blocks

theorem ended (p : ProcessId n) {call : WaitCall σ}
    (ended : (c.system.process p).main.ended? = some call) :
    call.predicate ((c.system.process p).state call.mutex) = true :=
  predicate_of_ended waitsFirst_enters sound.run p ended

theorem here_step (does : c.Does serialization monitor program m e c') (p : ProcessId n) :
    (program p (c'.round p)).At monitor (c'.system.process p) (c'.position p) := by
  have wf := wellFormed_run sound.run
  cases does with
  | @program q action position system next taken =>
    by_cases mine : p = q
    · subst mine
      simp only [Function.update_self]
      cases systemStep wf taken with
      | receive | updateTimestamp => cases next_isCall next
      | acts does =>
        rw [System.update_own]
        refine (sound.here p).called next does fun stays => ?_
        rw [stays]
        rfl
    · have round : (if position.isLock then Function.update c.round q (c.round q + 1)
          else c.round) p = c.round p := by
        split_ifs
        · exact Function.update_of_ne mine ..
        · rfl
      have same : system.process p = c.system.process p := by
        cases systemStep wf taken <;> exact Function.update_of_ne mine ..
      simp only [round, same, Function.update_of_ne mine]
      exact sound.here p
  | @thread q action system internal taken =>
    by_cases mine : p = q
    · subst mine
      cases systemStep wf taken with
      | receive | updateTimestamp =>
        simp only [System.update, Function.update_self]
        exact sound.here p
      | acts does =>
        simp only [System.update_own]
        exact (sound.here p).step (owning_run sound.run p) (fun call => sound.ended p)
          (fun holds => state_internal (fun _ _ _ may => may.1) sound.run holds internal does)
          (callStep internal does)
    · have same : system.process p = c.system.process p := by
        cases systemStep wf taken <;> exact Function.update_of_ne mine ..
      simp only [same]
      exact sound.here p

theorem fresh_step (does : c.Does serialization monitor program m e c') (p : ProcessId n)
    (fresh : (c'.position p).fresh = true)
    (holds : (c'.system.process p).holds monitor.1 = true) :
    (c'.system.process p).state monitor.1 =
      obtained monitor initial p ((c.system, e) :: systemTrace monitor program moves) := by
  have entries : ∀ trace s (e : Event n σ), waitsFirst monitor initial trace s e →
      entriesThatWait monitor s e = true := fun _ _ _ may => may.1
  have taken := does.taken
  cases does with
  | @program q action position system next taken =>
    by_cases mine : p = q
    · subst mine
      have main := call_main (next_isCall next) taken
      simp only [Function.update_self] at fresh
      cases here : c.position p with
      | lock =>
        rw [Client.next, here] at next
        cases next
        have owned := ((here ▸ sound.here p).of_running main).1
        have before := held_before (wellFormed_run sound.run) taken nofun holds
        rw [(holds_iff.1 before).1] at owned
        cases owned
      | wait =>
        rw [Client.next, here] at next
        cases next
        exact obtained_step entries sound.run taken (sound.fresh p (by rw [here]; rfl))
          (fun _ state => by simp) holds
      | body done locals =>
        rw [Client.next, here] at next
        obtain ⟨statement, -, next⟩ := Option.bind_eq_some_iff.1 next
        obtain ⟨after, -, next⟩ := Option.bind_eq_some_iff.1 next
        cases next
        split_ifs at fresh
        · cases fresh
        · unfold Entry.afterBody at fresh
          split_ifs at fresh <;> cases fresh
      | notify | leave =>
        rw [Client.next, here] at next
        simp only [Entry.next, Option.some.injEq, Prod.mk.injEq] at next
        rw [← next.2] at fresh
        split_ifs at fresh <;> cases fresh
    · simp only [Function.update_of_ne mine] at fresh
      exact obtained_step entries sound.run taken (sound.fresh p fresh)
        (fun same => absurd same.symm mine) holds
  | @thread q action system internal taken =>
    refine obtained_step entries sound.run taken (sound.fresh p fresh) ?_ holds
    rintro - state rfl
    cases internal

end Client.Sound

theorem sound_run (run : Client.Run serialization setup monitor program moves c) :
    c.Sound setup serialization monitor initial program moves := by
  apply run.history_invariant (I := fun moves c =>
    c.Sound setup serialization monitor initial program moves)
  · rintro _ rfl
    refine ⟨.start rfl, fun p => ⟨rfl, nofun⟩, fun p _ holds => ?_⟩
    cases holds
  · intro moves c m c' run sound _ moved
    obtain ⟨e, event, does⟩ := client_does moved
    refine ⟨?_, sound.here_step does, fun p fresh holds => ?_⟩
    · rw [systemTrace_cons event]
      exact .next sound.run (sound.may does) does.taken
    · rw [systemTrace_cons event]
      exact sound.fresh_step does p fresh holds

end DistributedMonitor
