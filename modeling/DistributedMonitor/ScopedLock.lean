import DistributedMonitor.Library.LockOrder
import DistributedMonitor.Replica

/-! Programs that take several mutexes at once through `std::scoped_lock`. Its `std::lock` relies
on a `try_lock` that fails where it would have to wait; this one waits, so the mutexes are taken
one after the other, and it takes the orders of the attempts to exclude a deadlock. -/

namespace DistributedMonitor
open Library

variable {n : ℕ} {σ : Type} {communicator : Communicator} {serialization : Serialization σ}
  {setup : Setup n σ} {trace : Trace (System n σ) (Event n σ)} {self p q : ProcessId n}
  {monitors : List MonitorName} {process process' : Process n σ} {action : Action n σ}
  {consumed : Option (Packet n)} {sent : List (Envelope n)} {mutexName : MutexName}

/-- Where the program of a process stands between its calls of `lock`, `try_lock` and `unlock`. -/
inductive ScopedLock where
  | outside
  /-- `std::lock` is about to make an attempt. -/
  | starting (mutexes : List MutexName)
  | locking (mutexes taken todo : List MutexName)
  /-- A `try_lock` has failed, and what has been taken is unlocked. -/
  | backing (mutexes taken : List MutexName)
  | inside (mutexes : List MutexName)
  /-- The destructor of the scope. -/
  | leaving (todo : List MutexName)

inductive ScopedAction (n : ℕ) (σ : Type) where
  | enter (mutexes : List MutexName)
  /-- One mutex is locked, and `try_lock` is called on the others, in an order left open. -/
  | attempt (order : List MutexName)
  | proceed
  | exit
  /-- Anything but a call that locks or unlocks. -/
  | act (action : Action n σ)

abbrev ScopedEvent (n : ℕ) (σ : Type) := ProcessId n × ScopedAction n σ

structure ScopedSystem (n : ℕ) (σ : Type) where
  system : System n σ
  scope : ProcessId n → ScopedLock

def Action.locks : Action n σ → Bool
  | .lock _ | .unlock _ | .wait .. | .leave _ => true
  | _ => false

namespace ScopedSystem

def goto (s : ScopedSystem n σ) (p : ProcessId n) (scope : ScopedLock) : Option (ScopedSystem n σ) :=
  match (s.system.process p).main with
  | .running => some { s with scope := Function.update s.scope p scope }
  | _ => none

def perform (communicator : Communicator) (serialization : Serialization σ) (s : ScopedSystem n σ)
    (p : ProcessId n) (action : Action n σ) (scope : ScopedLock) : Option (ScopedSystem n σ) :=
  (step communicator serialization s.system (p, action)).map fun system =>
    ⟨system, Function.update s.scope p scope⟩

/-- `try_lock` locks a mutex that its process does not own, and is true; it is false of a mutex
that the process does own. -/
def tryLock (communicator : Communicator) (serialization : Serialization σ) (s : ScopedSystem n σ)
    (p : ProcessId n) (mutexName : MutexName) (success failure : ScopedLock) :
    Option (ScopedSystem n σ) :=
  if !(s.system.process p).isOwned mutexName then
    s.perform communicator serialization p (.lock mutexName) success
  else s.goto p failure

def step (communicator : Communicator) (serialization : Serialization σ) (s : ScopedSystem n σ)
    (e : ScopedEvent n σ) : Option (ScopedSystem n σ) :=
  match e.2, s.scope e.1 with
  | .enter mutexes, .outside => if mutexes.Nodup then s.goto e.1 (.starting mutexes) else none
  | .attempt order, .starting mutexes =>
      if order.Perm mutexes then s.goto e.1 (.locking mutexes [] order) else none
  | .proceed, .locking mutexes _ [] => s.goto e.1 (.inside mutexes)
  | .proceed, .locking mutexes [] (first :: rest) =>
      s.perform communicator serialization e.1 (.lock first) (.locking mutexes [first] rest)
  | .proceed, .locking mutexes taken (mutexName :: rest) =>
      s.tryLock communicator serialization e.1 mutexName
        (.locking mutexes (taken ++ [mutexName]) rest) (.backing mutexes taken)
  | .proceed, .backing mutexes [] => s.goto e.1 (.starting mutexes)
  | .proceed, .backing mutexes (mutexName :: rest) =>
      s.perform communicator serialization e.1 (.unlock mutexName) (.backing mutexes rest)
  | .exit, .inside mutexes => s.goto e.1 (.leaving mutexes)
  | .proceed, .leaving [] => s.goto e.1 .outside
  | .proceed, .leaving (mutexName :: rest) =>
      s.perform communicator serialization e.1 (.unlock mutexName) (.leaving rest)
  | .act action, scope =>
      if action.locks then none else s.perform communicator serialization e.1 action scope
  | _, _ => none

end ScopedSystem

def Setup.scoped (setup : Setup n σ) : ScopedSystem n σ := ⟨setup.system, fun _ => .outside⟩

abbrev ScopedRun (communicator : Communicator) (serialization : Serialization σ)
    (setup : Setup n σ) (contract : Permission (ScopedSystem n σ) (ScopedEvent n σ)) :
    Trace (ScopedSystem n σ) (ScopedEvent n σ) → ScopedSystem n σ → Prop :=
  Execution (ScopedSystem.step communicator serialization) (· = setup.scoped) contract

def attemptsIn (orders : ProcessId n → List MutexName → Bool) :
    Permission (ScopedSystem n σ) (ScopedEvent n σ) := fun _ _ e =>
  (match e.2 with
  | .attempt order => orders e.1 order
  | _ => true) = true

instance {orders : ProcessId n → List MutexName → Bool}
    {trace : Trace (ScopedSystem n σ) (ScopedEvent n σ)} {s : ScopedSystem n σ}
    {e : ScopedEvent n σ} : Decidable (attemptsIn orders trace s e) :=
  inferInstanceAs (Decidable (_ = true))

/-- Each process of the set waits for a mutex that another of them holds. -/
def System.Deadlocked (s : System n σ) (members : Finset (ProcessId n)) : Prop :=
  members.Nonempty ∧ ∀ p ∈ members, ∃ mutexName,
    (s.process p).main.collecting? = some mutexName ∧
    ∃ q ∈ members, q ≠ p ∧ (s.process q).holds mutexName = true

def System.DeadlockFree (s : System n σ) : Prop :=
  (∀ p q, s.pending p q = []) → ∀ members, ¬s.Deadlocked members

def ScopedLock.taken : ScopedLock → List MutexName
  | .outside | .starting _ => []
  | .locking _ taken _ | .backing _ taken => taken
  | .inside mutexes => mutexes
  | .leaving todo => todo

def ScopedLock.Sane (orders : List MutexName → Bool) : ScopedLock → Prop
  | .outside => True
  | .starting mutexes | .inside mutexes | .leaving mutexes => mutexes.Nodup
  | .locking mutexes taken todo =>
      orders (taken ++ todo) = true ∧ (taken ++ todo).Perm mutexes ∧ mutexes.Nodup
  | .backing _ _ => False

structure Tidy (orders : List MutexName → Bool) (scope : ScopedLock) (process : Process n σ) :
    Prop where
  sane : scope.Sane orders
  unwaiting : process.main.waitCall = none
  unleaving : process.main.leaving? = none
  acquiring : ∀ mutexName, process.main.acquiring = some mutexName → ∃ mutexes held todo,
    scope = .locking mutexes (held ++ [mutexName]) todo ∧
    ∀ other, process.owned other = true ↔ other ∈ held
  releasing : ∀ mutexName, process.main.releasing? = some mutexName → mutexName ∉ scope.taken ∧
    ∀ other, process.owned other = true ↔ other = mutexName ∨ other ∈ scope.taken
  settled : process.main.acquiring = none → process.main.releasing? = none →
    ∀ other, process.owned other = true ↔ other ∈ scope.taken

theorem program_of_waitCall {caller : Caller σ} (none : caller.waitCall = none) :
    caller = .program := by
  cases caller with
  | program => rfl
  | wait call => cases none

theorem not_taken {mutexes taken todo : List MutexName}
    (permuted : (taken ++ mutexName :: todo).Perm mutexes) (distinct : mutexes.Nodup) :
    mutexName ∉ taken := by
  intro member
  have apart := (List.nodup_append.1 (permuted.nodup_iff.2 distinct)).2.2
  exact apart mutexName member mutexName (List.mem_cons_self ..) rfl

namespace Tidy

variable {orders : List MutexName → Bool} {scope scope' : ScopedLock}

theorem moved (tidy : Tidy orders scope process) (owned : process'.owned = process.owned)
    (waits : process'.main.waitCall = none) (leaves : process'.main.leaving? = none)
    (acquires : process'.main.acquiring = process.main.acquiring)
    (releases : process'.main.releasing? = process.main.releasing?) : Tidy orders scope process' := by
  refine ⟨tidy.sane, waits, leaves, ?_, ?_, ?_⟩
  · rw [acquires, owned]
    exact tidy.acquiring
  · rw [releases, owned]
    exact tidy.releasing
  · rw [acquires, releases, owned]
    exact tidy.settled

theorem rests (sane : scope.Sane orders) (waits : process.main.waitCall = none)
    (leaves : process.main.leaving? = none) (acquires : process.main.acquiring = none)
    (releases : process.main.releasing? = none)
    (owns : ∀ other, process.owned other = true ↔ other ∈ scope.taken) :
    Tidy orders scope process := by
  refine ⟨sane, waits, leaves, ?_, ?_, fun _ _ => owns⟩
  · rw [acquires]
    exact nofun
  · rw [releases]
    exact nofun

theorem mainStep (tidy : Tidy orders scope process) (free : action.locks = false)
    (does : MainStep serialization self process action process' sent) :
    Tidy orders scope process' := by
  have unwaiting := tidy.unwaiting
  have unleaving := tidy.unleaving
  cases does with
  | configured | assign => exact tidy.moved rfl unwaiting unleaving rfl rfl
  | notify called here same picked =>
    rcases picked with rfl | ⟨recipients, rfl, -⟩
    · exact tidy.moved rfl unwaiting unleaving rfl rfl
    · exact tidy.moved rfl rfl rfl (by rw [here]; rfl) (by rw [here]; rfl)
  | queue here | answerDeferred here =>
    rw [here] at unwaiting
    exact tidy.moved rfl unwaiting rfl (by rw [here]; rfl) (by rw [here]; rfl)
  | @acquired name id received caller here =>
    rw [here] at unwaiting
    obtain rfl := program_of_waitCall unwaiting
    obtain ⟨mutexes, held, todo, rfl, owns⟩ := tidy.acquiring name (by rw [here]; rfl)
    refine rests tidy.sane rfl rfl rfl rfl fun other => ?_
    change Function.update process.owned name true other = true ↔ other ∈ held ++ [name]
    by_cases same : other = name
    · simp [same]
    · simp [same, owns]
  | @released name unanswered caller here =>
    rw [here] at unwaiting
    obtain rfl := program_of_waitCall unwaiting
    obtain ⟨unlocked, owns⟩ := tidy.releasing name (by rw [here]; rfl)
    refine rests tidy.sane rfl rfl rfl rfl fun other => ?_
    change Function.update process.owned name false other = true ↔ other ∈ scope.taken
    by_cases same : other = name
    · simp [same, unlocked]
    · simp [same, owns]
  | sendNotify here => exact tidy.moved rfl rfl rfl (by rw [here]; rfl) (by rw [here]; rfl)
  | lock | unlock | wait | leave => cases free
  | announce here | stop here | retry here | wake here | subscribeConfirmations here
  | announceEnd here | waitReturns here =>
    rw [here] at unwaiting
    cases unwaiting
  | sendSync here | unlockMonitor here =>
    rw [here] at unleaving
    cases unleaving

theorem threadStep (tidy : Tidy orders scope process) (free : action.locks = false)
    (does : ThreadStep serialization self monitors process action consumed process' sent) :
    Tidy orders scope process' := by
  have unwaiting := tidy.unwaiting
  have unleaving := tidy.unleaving
  cases does with
  | main does => exact tidy.mainStep free does
  | dispatch received free' dispatches does =>
    cases does with
    | early type here | counted type here =>
      rw [here] at unwaiting
      exact tidy.moved rfl unwaiting rfl (by rw [here]; rfl) (by rw [here]; rfl)
    | notified =>
      refine tidy.moved rfl ?_ ?_ (acquiring_reads.signal ..) ?_
      · exact (waitCall_reads.signal ..).trans unwaiting
      · exact (leaving_reads.signal ..).trans unleaving
      · exact releasing_signal ..
    | confirmed =>
      refine tidy.moved rfl ?_ ?_ (acquiring_reads.confirm ..) ?_
      · exact (waitCall_reads.confirm ..).trans unwaiting
      · exact (leaving_reads.confirm ..).trans unleaving
      · exact releasing_confirm ..
    | _ => exact tidy.moved rfl unwaiting unleaving rfl rfl

theorem lock (tidy : Tidy orders scope process) (main : process.main = .running)
    {mutexes taken todo : List MutexName} (here : scope = .locking mutexes taken (mutexName :: todo)) :
    Tidy orders (.locking mutexes (taken ++ [mutexName]) todo)
      (process.acquireMutex mutexName .program) := by
  subst here
  refine ⟨?_, rfl, rfl, ?_, nofun, nofun⟩
  · have sane := tidy.sane
    rw [ScopedLock.Sane, List.append_cons] at sane
    exact sane
  · intro name acquires
    cases acquires
    refine ⟨mutexes, taken, todo, rfl, tidy.settled ?_ ?_⟩ <;> rw [main] <;> rfl

theorem unlock (tidy : Tidy orders scope process) (main : process.main = .running)
    (taken : scope.taken = mutexName :: scope'.taken) (distinct : scope.taken.Nodup)
    (sane : scope'.Sane orders) : Tidy orders scope' (process.unlock mutexName .program) := by
  have owns := tidy.settled (by rw [main]; rfl) (by rw [main]; rfl)
  rw [taken] at owns distinct
  have owned : process.owned mutexName = true := (owns mutexName).2 (List.mem_cons_self ..)
  rw [Process.unlock, Process.isOwned, if_pos owned]
  refine ⟨sane, rfl, rfl, fun _ acquires => absurd acquires.symm (Option.some_ne_none _), ?_,
    fun _ releases => absurd releases (Option.some_ne_none _)⟩
  intro name releases
  cases releases
  exact ⟨(List.nodup_cons.1 distinct).1, fun other => (owns other).trans List.mem_cons⟩

theorem goto (tidy : Tidy orders scope process) (main : process.main = .running)
    (sane : scope'.Sane orders) (same : ∀ other, other ∈ scope'.taken ↔ other ∈ scope.taken) :
    Tidy orders scope' process := by
  have owns := tidy.settled (by rw [main]; rfl) (by rw [main]; rfl)
  refine rests sane ?_ ?_ ?_ ?_ fun other => (owns other).trans (same other).symm <;>
    rw [main] <;> rfl

theorem unowned (tidy : Tidy orders scope process) (main : process.main = .running)
    {mutexes taken todo : List MutexName} (here : scope = .locking mutexes taken (mutexName :: todo)) :
    process.owned mutexName = false := by
  subst here
  obtain ⟨-, permuted, distinct⟩ := tidy.sane
  have owns := tidy.settled (by rw [main]; rfl) (by rw [main]; rfl)
  exact Bool.eq_false_iff.2 fun owned => not_taken permuted distinct ((owns mutexName).1 owned)

end Tidy

structure ScopedSystem.Orderly (communicator : Communicator) (serialization : Serialization σ)
    (setup : Setup n σ) (orders : ProcessId n → List MutexName → Bool) (s : ScopedSystem n σ) : Prop where
  runs : ∃ trace, Run communicator serialization setup (fun _ _ _ => True) trace s.system
  tidy : ∀ p, Tidy (orders p) (s.scope p) (s.system.process p)

theorem process_stepped {s s' : System n σ}
    (run : Run communicator serialization setup (fun _ _ _ => True) trace s)
    (taken : step communicator serialization s (self, action) = some s') :
    (∀ q, q ≠ self → s'.process q = s.process q) ∧
    ((s'.process self).owned = (s.process self).owned ∧
        (s'.process self).main = (s.process self).main ∧ action.isMain = false ∨
      ∃ consumed sent, ThreadStep serialization self (setup.monitors self) (s.process self) action
        consumed (s'.process self) sent) := by
  cases systemStep (wellFormed_run run) taken with
  | receive | updateTimestamp =>
    refine ⟨fun q other => Function.update_of_ne other .., .inl ⟨?_, ?_, rfl⟩⟩
    · exact read_update (fun process => process.owned) (by rfl) self
    · exact read_update (fun process => process.main) (by rfl) self
  | @acts self action consumed process' sent does =>
    refine ⟨fun q other => s.update_other other .., .inr ⟨consumed, sent, ?_⟩⟩
    rwa [System.update_own]

namespace ScopedSystem.Orderly

variable {orders : ProcessId n → List MutexName → Bool} {s s' : ScopedSystem n σ}
  {scope : ScopedLock} {e : ScopedEvent n σ}

theorem stepped (orderly : s.Orderly communicator serialization setup orders) {system : System n σ}
    (taken : DistributedMonitor.step communicator serialization s.system (p, action) = some system)
    (mine : Tidy (orders p) scope (system.process p)) :
    Orderly communicator serialization setup orders ⟨system, Function.update s.scope p scope⟩ := by
  obtain ⟨trace, run⟩ := orderly.runs
  refine ⟨⟨_, .next run trivial taken⟩, fun q => ?_⟩
  change Tidy (orders q) (Function.update s.scope p scope q) (system.process q)
  by_cases same : q = p
  · subst same
    rwa [Function.update_self]
  · rw [Function.update_of_ne same, (process_stepped run taken).1 q same]
    exact orderly.tidy q

theorem goto (orderly : s.Orderly communicator serialization setup orders)
    (gone : s.goto p scope = some s') (sane : scope.Sane (orders p))
    (same : ∀ other, other ∈ scope.taken ↔ other ∈ (s.scope p).taken) :
    s'.Orderly communicator serialization setup orders := by
  unfold ScopedSystem.goto at gone
  split at gone
  next main =>
    cases gone
    refine ⟨orderly.runs, fun q => ?_⟩
    change Tidy (orders q) (Function.update s.scope p scope q) (s.system.process q)
    by_cases mine : q = p
    · subst mine
      rw [Function.update_self]
      exact (orderly.tidy q).goto main sane same
    · rw [Function.update_of_ne mine]
      exact orderly.tidy q
  next => cases gone

theorem lock (orderly : s.Orderly communicator serialization setup orders)
    {mutexes taken todo : List MutexName} (here : s.scope p = .locking mutexes taken (mutexName :: todo))
    (performed : s.perform communicator serialization p (.lock mutexName)
      (.locking mutexes (taken ++ [mutexName]) todo) = some s') :
    s'.Orderly communicator serialization setup orders := by
  obtain ⟨system, stepped, rfl⟩ := Option.map_eq_some_iff.1 performed
  obtain ⟨main, after⟩ := step_call (fun _ => rfl) (by intro source; simp) stepped
  apply orderly.stepped stepped
  rw [after]
  exact (orderly.tidy p).lock main here

theorem unlock (orderly : s.Orderly communicator serialization setup orders)
    (taken : (s.scope p).taken = mutexName :: scope.taken) (distinct : (s.scope p).taken.Nodup)
    (sane : scope.Sane (orders p))
    (performed : s.perform communicator serialization p (.unlock mutexName) scope = some s') :
    s'.Orderly communicator serialization setup orders := by
  obtain ⟨system, stepped, rfl⟩ := Option.map_eq_some_iff.1 performed
  obtain ⟨main, after⟩ := step_call (fun _ => rfl) (by intro source; simp) stepped
  apply orderly.stepped stepped
  rw [after]
  exact (orderly.tidy p).unlock main taken distinct sane

theorem act (orderly : s.Orderly communicator serialization setup orders) (free : action.locks = false)
    (performed : s.perform communicator serialization p action (s.scope p) = some s') :
    s'.Orderly communicator serialization setup orders := by
  obtain ⟨system, stepped, rfl⟩ := Option.map_eq_some_iff.1 performed
  obtain ⟨trace, run⟩ := orderly.runs
  apply orderly.stepped stepped
  have tidy := orderly.tidy p
  obtain ⟨-, ⟨owned, main, -⟩ | ⟨consumed, sent, does⟩⟩ := process_stepped run stepped
  · refine tidy.moved owned ?_ ?_ ?_ ?_ <;> rw [main]
    · exact tidy.unwaiting
    · exact tidy.unleaving
  · exact tidy.threadStep free does

theorem step (orderly : s.Orderly communicator serialization setup orders)
    {trace : Trace (ScopedSystem n σ) (ScopedEvent n σ)} (may : attemptsIn orders trace s e)
    (taken : s.step communicator serialization e = some s') :
    s'.Orderly communicator serialization setup orders := by
  have sane := (orderly.tidy e.1).sane
  unfold ScopedSystem.step at taken
  split at taken
  next mutexes enters here =>
    split_ifs at taken with distinct
    apply orderly.goto taken distinct
    rw [here]
    exact fun other => Iff.rfl
  next order mutexes attempts here =>
    rw [here] at sane
    split_ifs at taken with permuted
    simp only [attemptsIn, attempts] at may
    apply orderly.goto taken ⟨may, permuted, sane⟩
    rw [here]
    exact fun other => Iff.rfl
  next mutexes held proceeds here =>
    rw [here] at sane
    obtain ⟨-, permuted, distinct⟩ := sane
    apply orderly.goto taken distinct
    rw [here]
    rw [List.append_nil] at permuted
    exact fun other => permuted.mem_iff.symm
  next mutexes first rest proceeds here => exact orderly.lock here taken
  next mutexes held mutexName rest nonempty proceeds here =>
    unfold ScopedSystem.tryLock at taken
    split_ifs at taken with owned
    · exact orderly.lock here taken
    · unfold ScopedSystem.goto at taken
      split at taken
      next main =>
        have unowned := (orderly.tidy e.1).unowned main here
        rw [Process.isOwned, unowned] at owned
        cases owned rfl
      next => cases taken
  next mutexes proceeds here =>
    rw [here] at sane
    cases sane
  next mutexes mutexName rest proceeds here =>
    rw [here] at sane
    cases sane
  next mutexes exits here =>
    rw [here] at sane
    apply orderly.goto taken sane
    rw [here]
    exact fun other => Iff.rfl
  next proceeds here =>
    apply orderly.goto taken trivial
    rw [here]
    exact fun other => Iff.rfl
  next mutexName rest proceeds here =>
    rw [here] at sane
    have performed : s.perform communicator serialization _ (.unlock mutexName) (.leaving rest) =
        some s' := taken
    refine orderly.unlock ?_ ?_ ?_ performed
    · rw [here]
      rfl
    · rw [here]
      exact sane
    · exact (List.nodup_cons.1 sane).2
  next action acts =>
    split_ifs at taken with locks
    exact orderly.act (Bool.eq_false_iff.2 locks) taken
  next => cases taken

end ScopedSystem.Orderly

theorem orderly_run {orders : ProcessId n → List MutexName → Bool}
    {trace : Trace (ScopedSystem n σ) (ScopedEvent n σ)} {s : ScopedSystem n σ}
    (run : ScopedRun communicator serialization setup (attemptsIn orders) trace s) :
    s.Orderly communicator serialization setup orders := by
  apply run.invariant (I := ScopedSystem.Orderly communicator serialization setup orders)
  · rintro _ rfl
    refine ⟨⟨[], .start rfl⟩, fun p => Tidy.rests trivial rfl rfl rfl rfl fun other => ?_⟩
    exact iff_of_false nofun List.not_mem_nil
  · intro trace s e s' _ orderly may taken
    exact orderly.step may taken

theorem Tidy.waiting {orders : List MutexName → Bool} {scope : ScopedLock}
    (tidy : Tidy orders scope process) (waits : process.main.acquiring = some mutexName) :
    ∃ rest, orders (scope.taken.dropLast ++ mutexName :: rest) = true ∧
      (∀ other, process.owned other = true ↔ other ∈ scope.taken.dropLast) ∧
      process.owned mutexName = false := by
  obtain ⟨mutexes, held, todo, rfl, owns⟩ := tidy.acquiring mutexName waits
  obtain ⟨ordered, permuted, distinct⟩ := tidy.sane
  rw [List.append_assoc] at ordered permuted
  rw [ScopedLock.taken, List.dropLast_concat]
  refine ⟨todo, ordered, owns, Bool.eq_false_iff.2 fun owned => ?_⟩
  exact not_taken permuted distinct ((owns mutexName).1 owned)

theorem releasing_of_acquiring {main : MainThread n σ} (acquires : main.acquiring = some mutexName) :
    main.releasing? = none := by
  cases main with
  | releasing => cases acquires
  | _ => rfl

/-- A deadlock is a ring of the orders. -/
theorem ring_of_deadlocked {orders : ProcessId n → List MutexName → Bool} {s : ScopedSystem n σ}
    (orderly : s.Orderly communicator serialization setup orders) {members : Finset (ProcessId n)}
    (deadlocked : s.system.Deadlocked members) :
    ∃ taken wants, Ring (fun p order => orders p order = true) members taken wants := by
  obtain ⟨nonempty, waits⟩ := deadlocked
  obtain ⟨trace, run⟩ := orderly.runs
  have waiting : ∀ p ∈ members, ∃ mutexName, (s.system.process p).main.acquiring = some mutexName ∧
      ∃ q ∈ members, q ≠ p ∧ (s.system.process q).holds mutexName = true := by
    intro p member
    obtain ⟨mutexName, collects, held⟩ := waits p member
    exact ⟨mutexName, acquiring_of_collecting collects, held⟩
  choose! wants acquires holder using waiting
  have owns : ∀ p ∈ members, ∀ mutexName, (s.system.process p).owned mutexName = true ↔
      mutexName ∈ (s.scope p).taken.dropLast := by
    intro p member
    obtain ⟨rest, -, owns, -⟩ := (orderly.tidy p).waiting (acquires p member)
    exact owns
  have holding : ∀ p ∈ members, ∀ mutexName ∈ (s.scope p).taken.dropLast,
      ∃ time, (s.system.process p).phase mutexName = .holding time := by
    intro p member mutexName taken
    have owned := (owns p member mutexName).2 taken
    obtain ⟨rest, -, -, unowned⟩ := (orderly.tidy p).waiting (acquires p member)
    refine holding_of_owned (owning_run run p) (holds_iff.2 ⟨owned, ?_⟩) fun collects => ?_
    · exact releasing_of_acquiring (acquires p member) ▸ nofun
    · cases (acquiring_of_collecting collects).symm.trans (acquires p member)
      rw [owned] at unowned
      cases unowned
  refine ⟨fun p => (s.scope p).taken.dropLast, wants, nonempty, ?_, ?_, ?_⟩
  · intro p member
    obtain ⟨rest, ordered, -, -⟩ := (orderly.tidy p).waiting (acquires p member)
    exact ⟨rest, ordered⟩
  · intro p member q member' different mutexName first second
    obtain ⟨time, first⟩ := holding p member mutexName first
    obtain ⟨time', second⟩ := holding q member' mutexName second
    exact different (holding_unique run first second)
  · intro p member
    obtain ⟨q, member', other, holds⟩ := holder p member
    exact ⟨q, member', other, (owns q member' _).1 (holds_iff.1 holds).1⟩

/-- Processes that take their mutexes in orders without rings never wait for each other. -/
theorem scoped_lock_free {orders : ProcessId n → List MutexName → Bool}
    (free : RingFree fun p order => orders p order = true)
    {trace : Trace (ScopedSystem n σ) (ScopedEvent n σ)} {s : ScopedSystem n σ}
    (run : ScopedRun communicator serialization setup (attemptsIn orders) trace s) :
    s.system.DeadlockFree := by
  intro _ members deadlocked
  obtain ⟨taken, wants, ring⟩ := ring_of_deadlocked (orderly_run run) deadlocked
  exact free members taken wants ring

def lane : MutexName := [108]

def paired (n : ℕ) : Setup n ℕ where
  mutexes _ := {gate, lane}
  conditions _ := ∅
  monitors _ := []
  state _ _ := 0

def ask (p : ProcessId 2) (mutexes : List MutexName) : List (ScopedEvent 2 ℕ) :=
  [(p, .enter mutexes), (p, .attempt mutexes), (p, .proceed), (p, .act .queue)]

def askNext (p : ProcessId 2) : List (ScopedEvent 2 ℕ) :=
  [(p, .act .acquired), (p, .proceed), (p, .act .queue)]

def convey (source recipient : ProcessId 2) : List (ScopedEvent 2 ℕ) :=
  [(recipient, .act (.receive source)), (recipient, .act .dispatch)]

theorem scoped_lock_free_two : ∃ trace s, ScopedRun .simple unary (paired 2)
    (attemptsIn fun _ order => order = [gate, lane]) trace s ∧
      (s.system.process 0).holds gate = true ∧ (s.system.process 0).holds lane = true ∧
      (s.system.process 1).main.collecting? = some gate ∧ s.system.DeadlockFree := by
  obtain ⟨trace, s, run, reached⟩ := exists_execution (ScopedSystem.step .simple unary)
    (paired 2).scoped (attemptsIn fun _ order => order = [gate, lane])
    [ask 0 [gate, lane], convey 0 1, convey 1 0, askNext 0, ask 1 [gate, lane], convey 1 0,
      convey 0 1, convey 1 0, [(0, .act .acquired)]].flatten
    (fun _ s => (s.system.process 0).holds gate ∧ (s.system.process 0).holds lane ∧
      (s.system.process 1).main.collecting? = some gate) (by decide +kernel)
  obtain ⟨first, second, waits⟩ := of_decide_eq_true reached
  refine ⟨trace, s, run, first, second, waits, scoped_lock_free ?_ run⟩
  refine ringFree_of_sorted (fun mutexName => (mutexName.headD 0).toNat) fun p order same => ?_
  rw [of_decide_eq_true same]
  decide

/-- Two processes name the same two mutexes in different orders, and each has locked its first
when its `try_lock` of the second starts to wait for the other. -/
theorem scoped_lock_deadlock_two : ¬∀ trace s, ScopedRun .simple unary (paired 2)
    (fun _ _ _ => True) trace s → s.system.DeadlockFree := by
  intro free
  obtain ⟨trace, s, run, reached⟩ := exists_execution (ScopedSystem.step .simple unary)
    (paired 2).scoped (fun _ _ _ => True)
    [ask 0 [gate, lane], convey 0 1, convey 1 0, ask 1 [lane, gate], convey 1 0, convey 0 1,
      askNext 0, askNext 1, convey 0 1, convey 1 0].flatten
    (fun _ s => (∀ p q : ProcessId 2, s.system.pending p q = []) ∧
      ((s.system.process 0).main.collecting? = some lane ∧ (s.system.process 1).holds lane) ∧
      (s.system.process 1).main.collecting? = some gate ∧ (s.system.process 0).holds gate)
    (by decide +kernel)
  obtain ⟨quiet, first, second⟩ := of_decide_eq_true reached
  refine free trace s run quiet {0, 1} ⟨⟨0, by decide⟩, fun p member => ?_⟩
  rcases Finset.mem_insert.1 member with rfl | last
  · exact ⟨lane, first.1, 1, by decide, by decide, first.2⟩
  · rw [Finset.mem_singleton.1 last]
    exact ⟨gate, second.1, 0, by decide, by decide, second.2⟩

end DistributedMonitor
