import DistributedMonitor.Simulation

/-! What the ticket protocol gives for every run: one holder at a time, and returns
from `acquireMutex` in the order of the stamps. -/

namespace DistributedMonitor
open Library TicketExclusion

variable {n : ℕ} {σ : Type} {communicator : Communicator} {serialization : Serialization σ}
  {setup : Setup n σ} {contract : Permission (System n σ) (Event n σ)}
  {trace : Trace (System n σ) (Event n σ)} {s : System n σ} {mutexName : MutexName}

/-- No process acquires a mutex it already holds. -/
def acquiresOnce (s : System n σ) (e : Event n σ) : Bool :=
  match e.2 with
  | .lock mutexName => !(s.process e.1).owned mutexName
  | _ => true

theorem not_updating (run : Run .simple serialization setup contract trace s) (p : ProcessId n)
    (packet : Packet n) : (s.process p).receiving ≠ .updating packet := by
  let listens : Process n σ → Prop := fun process => ∀ packet, process.receiving ≠ .updating packet
  have never : ∀ p, listens (s.process p) := by
    apply run.invariant (I := fun s => ∀ p, listens (s.process p))
    · rintro _ rfl p packet
      exact nofun
    · intro trace s e s' run before may taken
      cases systemStep (wellFormed_run run) taken with
      | receive listening head =>
        apply forall_update before
        exact fun packet => nofun
      | updateTimestamp updating => exact absurd updating (before _ _)
      | @acts self action consumed process' sent does =>
        apply forall_update before
        intro packet
        cases does with
        | main does => exact mainStep_receiving does ▸ before self packet
        | dispatch received free dispatches does =>
          rw [dispatched_receiving does]
          exact nofun
  exact never p packet

theorem simulates_initial :
    Simulates communicator mutexName setup.system (Quiet : State (ProcessId n)) where
  clock p := rfl
  phase p := rfl
  requested p q := rfl
  deferred p q := by
    simp [Quiet, Setup.system, Setup.process, Process.deferred, MainThread.deferred]
  agreed p q := rfl
  counted p q := by simp [Quiet, Setup.system, Setup.process, MainThread.agreements]
  stamped p q raw time member := by cases member
  known p q raw time member := by cases member

/-- Every run is simulated. The ordered protocol is simulated when no mutex is acquired
twice and no verdict is changed by a rewritten stamp. -/
theorem simulated (run : Run communicator serialization setup contract trace s)
    (mutexName : MutexName) {ordered : Prop}
    (again : ordered → ∀ trace s, Run communicator serialization setup contract trace s → ∀ p,
      (s.process p).main.acquiring = some mutexName → (s.process p).owned mutexName = false)
    (kept : ordered → ∀ trace s e, Run communicator serialization setup contract trace s →
      contract trace s e → keepsVerdict mutexName s e = true) :
    ∃ a, Invariant ordered a ∧ Simulates communicator mutexName s a ∧
      a.granted = grants mutexName trace := by
  have initially : ∀ s : System n σ, s = setup.system → ∃ a : State (ProcessId n), a = Quiet ∧
      Simulates communicator mutexName s a ∧
      a.granted = grants mutexName ([] : Trace (System n σ) (Event n σ)) := by
    rintro _ rfl
    exact ⟨Quiet, rfl, simulates_initial, rfl⟩
  have steps : ∀ trace s e s' (a : State (ProcessId n)),
      Run communicator serialization setup contract trace s →
      (∃ a₀, a₀ = Quiet ∧ Relation.ReflTransGen (Step ordered) a₀ a) →
      Simulates communicator mutexName s a ∧ a.granted = grants mutexName trace →
      contract trace s e → step communicator serialization s e = some s' →
      ∃ a', Relation.ReflTransGen (Step ordered) a a' ∧
        Simulates communicator mutexName s' a' ∧
        a'.granted = grants mutexName ((s, e) :: trace) := by
    rintro trace s e s' a run ⟨_, rfl, chain⟩ ⟨sim, granted⟩ may taken
    have inv := invariant_chain invariant_quiet chain
    have grant : ∀ a' : State (ProcessId n),
        a'.granted = (grantOf mutexName s e).toList ++ a.granted →
        a'.granted = grants mutexName ((s, e) :: trace) := by
      intro a' more
      rw [more, granted]
      cases shows : grantOf mutexName s e with
      | none => exact (recorded_none shows).symm
      | some grant => exact (recorded_some shows).symm
    have single : Matched communicator mutexName ordered s s' e a →
        ∃ a', Relation.ReflTransGen (Step ordered) a a' ∧
          Simulates communicator mutexName s' a' ∧
          a'.granted = grants mutexName ((s, e) :: trace) := by
      rintro ⟨a', step, sim', more⟩
      exact ⟨a', .single step, sim', grant a' more⟩
    cases systemStep (wellFormed_run run) taken with
    | receive listening head => exact single (matched_receive sim listening head)
    | updateTimestamp updating =>
      cases communicator with
      | simple => exact absurd updating (not_updating run _ _)
      | optimized =>
        obtain ⟨a', steps, sim', more⟩ := matched_updateTimestamp sim updating
        exact ⟨a', steps, sim', grant a' more⟩
    | @acts self action consumed process' sent does =>
      exact single (matched sim inv does
        (mutexEffect (wellFormed_run run self) (owning_run run self) does)
        (fun strict => again strict trace s run self) (fun strict => kept strict trace s _ run may))
  obtain ⟨a, ⟨_, rfl, chain⟩, sim, granted⟩ := run.simulated
    (R := fun trace s a => Simulates communicator mutexName s a ∧ a.granted = grants mutexName trace)
    initially steps
  exact ⟨a, invariant_chain invariant_quiet chain, sim, granted⟩

theorem simulated_unordered (run : Run communicator serialization setup contract trace s)
    (mutexName : MutexName) :
    ∃ a, Invariant False a ∧ Simulates communicator mutexName s a ∧
      a.granted = grants mutexName trace :=
  simulated run mutexName nofun nofun

def MainThread.releasing? : MainThread n σ → Option MutexName
  | .releasing mutexName _ _ => some mutexName
  | _ => none

theorem releasing_signal (main : MainThread n σ) (condName : CondName) :
    (main.signal condName).releasing? = main.releasing? :=
  read_signal MainThread.releasing? (fun _ _ _ => rfl) main condName

theorem releasing_confirm (main : MainThread n σ) (condName : CondName) (packet : Packet n) :
    (main.confirm condName packet).releasing? = main.releasing? :=
  read_confirm MainThread.releasing? (fun _ _ _ _ => rfl) (fun _ _ _ _ => rfl) main condName

/-- Between the return of `acquireMutex` and the start of `releaseMutex`. -/
def Process.holds (process : Process n σ) (mutexName : MutexName) : Bool :=
  process.owned mutexName ∧ process.main.releasing? ≠ some mutexName

theorem holds_iff {process : Process n σ} : process.holds mutexName = true ↔
    process.owned mutexName = true ∧ process.main.releasing? ≠ some mutexName := by
  simp [Process.holds]

theorem holding_of_owned {process : Process n σ} (own : process.Owning)
    (holds : process.holds mutexName = true) (settled : process.main.collecting? ≠ some mutexName) :
    ∃ time, process.phase mutexName = .holding time := by
  obtain ⟨owned, unreleased⟩ := holds_iff.1 holds
  obtain ⟨time, queued⟩ := Option.isSome_iff_exists.1 (own.queued mutexName owned)
  refine ⟨time, ?_⟩
  rw [phase_queued queued]
  cases main : process.main with
  | collecting name id received caller =>
    exact if_neg fun same => settled (by rw [main, same]; rfl)
  | releasing name unanswered caller => exact if_neg fun same => unreleased (by rw [main, same]; rfl)
  | _ => rfl

theorem holds_of_holding {process : Process n σ} (own : process.Owning) {time : LamportTime}
    (holding : process.phase mutexName = .holding time) : process.holds mutexName = true := by
  have queued : process.queuedMutexes mutexName = some time :=
    phase_time (by rw [holding]; rfl)
  rw [phase_queued queued] at holding
  refine holds_iff.2 ⟨?_, ?_⟩
  · refine (own.owner mutexName (by rw [queued]; rfl)).resolve_right fun collects => ?_
    cases main : process.main with
    | collecting name id received caller =>
      rw [main] at collects holding
      rw [Option.some.inj collects] at holding
      exact nomatch (if_pos rfl).symm.trans holding
    | _ =>
      rw [main] at collects
      cases collects
  · intro releases
    cases main : process.main with
    | releasing name unanswered caller =>
      rw [main] at releases holding
      rw [Option.some.inj releases] at holding
      exact nomatch (if_pos rfl).symm.trans holding
    | _ =>
      rw [main] at releases
      cases releases

theorem MainThread.Elsewhere.acquiring {main : MainThread n σ} (elsewhere : main.Elsewhere) :
    main.acquiring = none := by
  cases main <;> first | rfl | cases elsewhere

theorem acquiring_reads :
    ReadsCaller (MainThread.acquiring : MainThread n σ → _) fun _ => none := {}

theorem unlock_owned (process : Process n σ) (name : MutexName) (caller : Caller σ) :
    (process.unlock name caller).owned = process.owned := by
  unfold Process.unlock
  split_ifs <;> rfl

theorem acquiring_of_collecting {main : MainThread n σ}
    (collects : main.collecting? = some mutexName) : main.acquiring = some mutexName := by
  cases main with
  | collecting => exact collects
  | _ => cases collects

theorem acquiring_unowned {contract : Permission (System n σ) (Event n σ)}
    (once : ∀ trace s e, contract trace s e → acquiresOnce s e = true)
    (run : Run communicator serialization setup contract trace s) (p : ProcessId n)
    (acquires : (s.process p).main.acquiring = some mutexName) :
    (s.process p).owned mutexName = false := by
  have always : ∀ p mutexName, (s.process p).main.acquiring = some mutexName →
      (s.process p).owned mutexName = false := by
    refine process_run (P := fun process => ∀ mutexName, process.main.acquiring = some mutexName →
      process.owned mutexName = false) run ?_ ?_ ?_
    · exact fun p mutexName acquires => rfl
    · exact fun process clock receiving before => before
    · intro trace s self action consumed process' sent run may before does
      have own := (owning_run run self).main
      intro mutexName acquires
      cases does with
      | main does =>
        cases does with
        | configured | assign => exact before mutexName acquires
        | answerDeferred => cases acquires
        | lock here =>
          cases acquires
          have fresh := once trace s _ may
          simp only [acquiresOnce, Bool.not_eq_true'] at fresh
          exact fresh
        | unlock | retry | unlockMonitor =>
          rw [acquiring_reads.unlock] at acquires
          cases acquires
        | notify called here same picked =>
          rcases picked with rfl | ⟨recipients, rfl, -⟩
          · exact before mutexName acquires
          · cases acquires
        | queue here =>
          rw [here] at before
          exact before mutexName acquires
        | acquired =>
          rw [(elsewhere_afterLock _).acquiring] at acquires
          cases acquires
        | released =>
          rw [(elsewhere_afterUnlock _).acquiring] at acquires
          cases acquires
        | wake here =>
          cases acquires
          rw [here] at own
          exact own
        | _ => cases acquires
      | dispatch received free dispatches does =>
        cases does with
        | early type here | counted type here =>
          rw [here] at before
          exact before mutexName acquires
        | notified => exact before mutexName (acquiring_reads.signal _ _ ▸ acquires)
        | confirmed => exact before mutexName (acquiring_reads.confirm _ _ _ ▸ acquires)
        | _ => exact before mutexName acquires
  exact always p mutexName acquires

/-- No mutex has two holders, whatever the program does. -/
theorem holding_unique (run : Run communicator serialization setup contract trace s)
    {p q : ProcessId n} {time time' : LamportTime}
    (first : (s.process p).phase mutexName = .holding time)
    (second : (s.process q).phase mutexName = .holding time') : p = q := by
  obtain ⟨a, inv, sim, -⟩ := simulated_unordered run mutexName
  exact inv.exclusive ((sim.phase p).trans first) ((sim.phase q).trans second)

theorem holding_of_holds (once : ∀ trace s e, contract trace s e → acquiresOnce s e = true)
    (run : Run communicator serialization setup contract trace s) {p : ProcessId n}
    (holds : (s.process p).holds mutexName = true) :
    ∃ time, (s.process p).phase mutexName = .holding time := by
  refine holding_of_owned (owning_run run p) holds fun collects => ?_
  have unowned := acquiring_unowned once run p (acquiring_of_collecting collects)
  rw [(holds_iff.1 holds).1] at unowned
  cases unowned

theorem holder_unique (once : ∀ trace s e, contract trace s e → acquiresOnce s e = true)
    (run : Run communicator serialization setup contract trace s) {p q : ProcessId n}
    (first : (s.process p).holds mutexName = true)
    (second : (s.process q).holds mutexName = true) : p = q := by
  obtain ⟨time, holding⟩ := holding_of_holds once run first
  obtain ⟨time', holding'⟩ := holding_of_holds once run second
  exact holding_unique run holding holding'

theorem mutual_exclusion (run : Run .simple serialization setup (Obeying acquiresOnce) trace s)
    {p q : ProcessId n} (first : (s.process p).holds mutexName = true)
    (second : (s.process q).holds mutexName = true) : p = q :=
  holder_unique (fun _ _ _ may => may) run first second

theorem mutual_exclusion_two : ∃ trace s,
    Run .simple unary (plain 2) (Obeying acquiresOnce) trace s ∧
      (s.process 0).holds gate = true ∧ ∀ q, (s.process q).holds gate = true → 0 = q := by
  obtain ⟨trace, s, run, holds⟩ := exists_run .simple unary (plain 2) (Obeying acquiresOnce)
    [[(0, .lock gate), (0, .queue)], deliver 0 1, deliver 1 0, [(0, .acquired)]].flatten
    (fun _ s => (s.process 0).holds gate) (by decide +kernel)
  exact ⟨trace, s, run, holds, fun q other => mutual_exclusion run holds other⟩

/-- A rewritten stamp is larger than the stamp its sender queued, so a request is never
agreed to that the sender's own stamp would have deferred. -/
theorem mutual_exclusion_optimized
    (run : Run .optimized serialization setup (Obeying acquiresOnce) trace s) {p q : ProcessId n}
    (first : (s.process p).holds mutexName = true)
    (second : (s.process q).holds mutexName = true) : p = q :=
  holder_unique (fun _ _ _ may => may) run first second

theorem mutual_exclusion_optimized_two : ∃ trace s,
    Run .optimized unary (plain 2) (Obeying acquiresOnce) trace s ∧
      (s.process 0).holds gate = true ∧ (s.process 1).main.collecting? = some gate ∧
      ∀ q, (s.process q).holds gate = true → 0 = q := by
  obtain ⟨trace, s, run, reached⟩ := exists_run .optimized unary (plain 2) (Obeying acquiresOnce)
    [(0, .lock gate), (0, .queue), (1, .lock gate), (1, .receive 0), (1, .queue),
      (1, .updateTimestamp), (1, .dispatch), (0, .receive 1), (0, .updateTimestamp), (0, .dispatch),
      (0, .receive 1), (0, .updateTimestamp), (0, .dispatch), (0, .acquired)]
    (fun _ s => (s.process 0).holds gate ∧ (s.process 1).main.collecting? = some gate)
    (by decide +kernel)
  obtain ⟨holds, waits⟩ := of_decide_eq_true reached
  exact ⟨trace, s, run, holds, waits, fun q other => mutual_exclusion_optimized run holds other⟩

/-- The returns from `acquireMutex`, over all processes, follow the tickets drawn by `queue`. -/
theorem grants_in_order (run : Run .simple serialization setup contract trace s)
    (mutexName : MutexName) :
    (grants mutexName trace).reverse.Pairwise (fun earlier later => earlier < later) := by
  obtain ⟨a, inv, -, granted⟩ := simulated_unordered run mutexName
  rw [List.pairwise_reverse, ← granted]
  exact inv.granted_sorted

theorem grants_in_order_two : ∃ trace s, Run .simple unary (plain 2) (Obeying acquiresOnce) trace s ∧
    grants gate trace = [ticket 1 1, ticket 1 0] ∧
    (grants gate trace).reverse.Pairwise (fun earlier later => earlier < later) := by
  obtain ⟨trace, s, run, granted⟩ := exists_run .simple unary (plain 2) (Obeying acquiresOnce)
    [[(0, .lock gate), (0, .queue), (1, .lock gate), (1, .queue)], deliver 0 1, deliver 1 0,
      deliver 1 0, [(0, .acquired), (0, .unlock gate),
      (0, .answerDeferred ⟨1, 1, .mutexRequest, gate⟩), (0, .released)], deliver 0 1,
      [(1, .acquired)]].flatten
    (fun trace _ => grants gate trace = [ticket 1 1, ticket 1 0]) (by decide +kernel)
  exact ⟨trace, s, run, of_decide_eq_true granted, grants_in_order run gate⟩

end DistributedMonitor
