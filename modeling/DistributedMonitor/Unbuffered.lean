import DistributedMonitor.Rendezvous
import DistributedMonitor.Linearization

/-! What an MPI that buffers nothing cannot take away. It may leave the processes stuck inside
`MPI_Send`, but until then they do what they do with channels: a mutex has one holder, and the
entries of a monitor are atomic. -/

namespace DistributedMonitor
open Library

variable {n : ℕ} {σ ρ : Type} {serialization : Serialization σ} {setup : Setup n σ}

/-- A mutex has one holder at a time, whatever the threads wait for inside their sends. -/
theorem unbuffered_exclusion {trace : Trace (UnbufferedSystem n σ) (UnbufferedEvent n σ)}
    {s : UnbufferedSystem n σ}
    (run : UnbufferedRun serialization setup (Below (Obeying acquiresOnce)) trace s)
    {p q : ProcessId n} {mutexName : MutexName} (first : (s.process p).holds mutexName = true)
    (second : (s.process q).holds mutexName = true) : p = q :=
  holder_unique (s := s.below) (fun _ _ _ may => may) (below_run (fun _ _ _ _ => rfl) run) first second

theorem unbuffered_exclusion_two : ∃ trace s,
    UnbufferedRun unary (plain 2) (Below (Obeying acquiresOnce)) trace s ∧
      (s.sending 1).isSome ∧ ∀ q, (s.process q).holds gate = true → 0 = q := by
  obtain ⟨trace, s, run, reached⟩ := exists_execution (unbufferedStep unary) (plain 2).unbuffered
    (Below (Obeying acquiresOnce))
    [(0, .act (.lock gate) []), (0, .act .queue [1]), (0, .deliver), (0, .deliver),
      (1, .updateClock), (1, .log .receiving), (1, .act .dispatch [0]), (1, .deliver),
      (1, .deliver), (0, .updateClock), (0, .log .receiving), (0, .act .dispatch []),
      (0, .act .acquired []), (1, .act (.lock gate) []), (1, .act .queue [0])]
    (fun _ (s : UnbufferedSystem 2 ℕ) => (s.process 0).holds gate ∧ (s.sending 1).isSome)
    (by decide +kernel)
  obtain ⟨holds, sends⟩ := of_decide_eq_true reached
  exact ⟨trace, s, run, sends, fun q other => unbuffered_exclusion run holds other⟩

structure UnbufferedClient (n : ℕ) (σ ρ : Type) where
  system : UnbufferedSystem n σ
  position : ProcessId n → Position ρ
  round : ProcessId n → ℕ

inductive UnbufferedMove (n : ℕ) (σ : Type) where
  | program (p : ProcessId n)
  | thread (p : ProcessId n) (action : UnbufferedAction n σ)

namespace UnbufferedClient

def seen (c : UnbufferedClient n σ ρ) : Client n σ ρ := ⟨c.system.below, c.position, c.round⟩

def step (serialization : Serialization σ) (monitor : MonitorName) (program : Program n σ ρ)
    (c : UnbufferedClient n σ ρ) : UnbufferedMove n σ → Option (UnbufferedClient n σ ρ)
  | .program p =>
      (c.seen.next monitor program p).bind fun next =>
        (unbufferedStep serialization c.system (p, .act next.1 [])).map fun system =>
          { system
            position := Function.update c.position p next.2
            round := if next.2.isLock then Function.update c.round p (c.round p + 1) else c.round }
  | .thread p action =>
      if action.act?.any Action.isCall then none
      else (unbufferedStep serialization c.system (p, action)).map fun system => { c with system }

def returns (program : Program n σ ρ) (monitor : MonitorName) (c : UnbufferedClient n σ ρ) :
    UnbufferedMove n σ → Option (ProcessId n × ρ)
  | .program p => c.seen.returns program monitor (.program p)
  | .thread _ _ => none

def stepBelow (c : UnbufferedClient n σ ρ) :
    UnbufferedMove n σ → Option (Client n σ ρ × Move n σ)
  | .program p => some (c.seen, .program p)
  | .thread p action => (c.system.stepBelow (p, action)).map fun below =>
      (c.seen, .thread below.2.1 below.2.2)

abbrev Run (serialization : Serialization σ) (setup : Setup n σ) (monitor : MonitorName)
    (program : Program n σ ρ) :
    Trace (UnbufferedClient n σ ρ) (UnbufferedMove n σ) → UnbufferedClient n σ ρ → Prop :=
  Execution (step serialization monitor program)
    (· = ⟨setup.unbuffered, fun _ => .lock, fun _ => 0⟩) fun _ _ _ => True

end UnbufferedClient

variable {monitor : MonitorName} {initial : σ} {program : Program n σ ρ}
  {c c' : UnbufferedClient n σ ρ} {m : UnbufferedMove n σ}
  {moves : Trace (UnbufferedClient n σ ρ) (UnbufferedMove n σ)}

theorem client_coupled (run : UnbufferedClient.Run serialization setup monitor program moves c) :
    c.system.Coupled := by
  apply run.invariant (I := fun c => c.system.Coupled)
  · rintro _ rfl
    exact .start
  · intro moves c m c' _ coupled _ moved
    cases m with
    | program p =>
      obtain ⟨next, -, goes⟩ := Option.bind_eq_some_iff.1 moved
      obtain ⟨system, taken, rfl⟩ := Option.map_eq_some_iff.1 goes
      exact coupled.step (unbufferedStep_cases taken).2
    | thread p action =>
      simp only [UnbufferedClient.step] at moved
      split_ifs at moved
      obtain ⟨system, taken, rfl⟩ := Option.map_eq_some_iff.1 moved
      exact coupled.step (unbufferedStep_cases taken).2

theorem seen_run (run : UnbufferedClient.Run serialization setup monitor program moves c) :
    Client.Run serialization setup monitor program (recorded UnbufferedClient.stepBelow moves)
      c.seen := by
  refine run.refines UnbufferedClient.seen _ (fun _ begins => by rw [begins]; rfl) ?_
  intro moves c m c' run _ moved
  have coupled := client_coupled run
  cases m with
  | program p =>
    obtain ⟨⟨action, position⟩, next, goes⟩ := Option.bind_eq_some_iff.1 moved
    obtain ⟨system, taken, rfl⟩ := Option.map_eq_some_iff.1 goes
    rcases coupled.below_step (unbufferedStep_cases taken).2 with ⟨silent, -⟩ | ⟨e, shows, below⟩
    · cases silent
    · cases shows
      have below' : step .simple serialization c.seen.system (p, action) = some system.below := below
      refine .inr ⟨.program p, rfl, trivial, ?_⟩
      simp only [Client.step, next, below', Option.bind_eq_bind, Option.bind_some]
      rfl
  | thread p action =>
    simp only [UnbufferedClient.step] at moved
    split_ifs at moved with called
    obtain ⟨system, taken, rfl⟩ := Option.map_eq_some_iff.1 moved
    rcases coupled.below_step (unbufferedStep_cases taken).2 with ⟨silent, same⟩ | ⟨e, shows, below⟩
    · refine .inl ⟨?_, ?_⟩
      · simp only [UnbufferedClient.stepBelow, silent, Option.map_none]
      · simp only [UnbufferedClient.seen, same]
    · have internal : e.2.isCall = false := by
        cases action with
        | act action order =>
          cases shows
          exact Bool.eq_false_of_not_eq_true called
        | updateClock =>
          simp only [UnbufferedSystem.stepBelow] at shows
          split at shows <;> cases shows
          rfl
        | deliver | log | throw => cases shows
      have below' : step .simple serialization c.seen.system (e.1, e.2) = some system.below := below
      refine .inr ⟨.thread e.1 e.2, ?_, trivial, ?_⟩
      · simp only [UnbufferedClient.stepBelow, shows, Option.map_some]
      · simp only [Client.step, internal, Bool.false_eq_true, if_false, below', Option.map_some]
        rfl

theorem seen_returns (moves : Trace (UnbufferedClient n σ ρ) (UnbufferedMove n σ)) :
    recorded (Client.returns program monitor) (recorded UnbufferedClient.stepBelow moves) =
      recorded (UnbufferedClient.returns program monitor) moves := by
  unfold recorded
  rw [List.filterMap_filterMap]
  congr 1
  funext entry
  obtain ⟨c, m⟩ := entry
  cases m with
  | program p => rfl
  | thread p action =>
    simp only [UnbufferedClient.stepBelow, UnbufferedClient.returns]
    cases c.system.stepBelow (p, action) <;> rfl

/-- Entries of two processes are atomic without buffers too. -/
theorem unbuffered_entries_atomic {setup : Setup 2 σ} {program : Program 2 σ ρ}
    {c : UnbufferedClient 2 σ ρ} {moves : Trace (UnbufferedClient 2 σ ρ) (UnbufferedMove 2 σ)}
    (shares : ∀ p, setup.monitors p = [monitor])
    (alike : ∀ p, setup.state p monitor.1 = initial)
    (restores : ∀ old state,
      serialization.restoreState monitor old (serialization.saveState monitor state) = state)
    (short : monitor.1.length ≠ 255)
    (run : UnbufferedClient.Run serialization setup monitor program moves c) :
    ∃ history a, Sequential.Run program initial history a ∧
      recorded (Sequential.returns program) history =
        recorded (UnbufferedClient.returns program monitor) moves := by
  obtain ⟨history, a, sequential, same, -⟩ :=
    linearized shares alike restores (orders_two short) (seen_run run)
  exact ⟨history, a, sequential, same.trans (seen_returns moves)⟩

def UnbufferedMove.carry (source recipient : ProcessId n) (answers : List (ProcessId n)) :
    List (UnbufferedMove n σ) :=
  [.thread source .deliver, .thread source .deliver, .thread recipient .updateClock,
    .thread recipient (.log .receiving), .thread recipient (.act .dispatch answers)]

theorem unbuffered_entries_atomic_two : ∃ moves c,
    UnbufferedClient.Run unary (shared 2) board exchange moves c ∧
    ∃ history a, Sequential.Run exchange 0 history a ∧
      recorded (Sequential.returns exchange) history = [(1, 5)] := by
  obtain ⟨moves, c, run, reached⟩ := exists_execution (UnbufferedClient.step unary board exchange)
    ⟨(shared 2).unbuffered, fun _ => .lock, fun _ => 0⟩ (fun _ _ _ => True)
    [[.program 1, .thread 1 (.act .queue [0])], UnbufferedMove.carry 1 0 [1],
      UnbufferedMove.carry 0 1 [], [.thread 1 (.act .acquired []), .thread 1 (.log .main),
      .program 1, .thread 1 (.act .announce [0])], UnbufferedMove.carry 1 0 [],
      [.thread 1 (.log .main), .thread 1 (.act .evaluate []), .thread 1 (.act .subscribeConfirmations []),
      .thread 1 (.act .announceEnd [0])], UnbufferedMove.carry 1 0 [1],
      UnbufferedMove.carry 0 1 [], [.thread 1 (.act .waitReturns []), .program 1]].flatten
    (fun moves _ => recorded (UnbufferedClient.returns exchange board) moves = [(1, 5)])
    (by decide +kernel)
  obtain ⟨history, a, sequential, same⟩ := unbuffered_entries_atomic (by decide) (fun p => rfl)
    (fun old state => List.length_replicate) (by decide) run
  exact ⟨moves, c, run, history, a, sequential, same.trans (of_decide_eq_true reached)⟩

end DistributedMonitor
