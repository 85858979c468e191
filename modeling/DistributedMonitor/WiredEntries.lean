import Mathlib.Algebra.Order.BigOperators.Group.Finset
import DistributedMonitor.Transport
import DistributedMonitor.Exchange

/-! Programs of monitor entries over MPI. Their moves are moves of the programs on whole packets,
so their entries are atomic too. -/

namespace DistributedMonitor
open Library

variable {n : ℕ} {σ ρ Content Thread : Type}

structure WiredClient (n : ℕ) (σ ρ Content Thread : Type) where
  wired : Wired n σ Content Thread
  position : ProcessId n → Position ρ
  round : ProcessId n → ℕ

inductive WiredMove (n : ℕ) (σ : Type) where
  | program (p : ProcessId n)
  | thread (p : ProcessId n) (action : WiredAction n σ)

namespace WiredClient

def seen (c : WiredClient n σ ρ Content Thread) : Client n σ ρ :=
  ⟨⟨c.wired.own, fun _ _ => []⟩, c.position, c.round⟩

def step (communicator : ICommunicator n Content Thread) (serialization : Serialization σ)
    (monitor : MonitorName) (program : Program n σ ρ) (c : WiredClient n σ ρ Content Thread) :
    WiredMove n σ → Option (WiredClient n σ ρ Content Thread)
  | .program p =>
      (c.seen.next monitor program p).bind fun next =>
        (c.wired.step communicator serialization (p, .act next.1)).map fun wired =>
          { wired
            position := Function.update c.position p next.2
            round := if next.2.isLock then Function.update c.round p (c.round p + 1) else c.round }
  | .thread p action =>
      if action.act?.any Action.isCall then none
      else (c.wired.step communicator serialization (p, action)).map fun wired => { c with wired }

def event (monitor : MonitorName) (program : Program n σ ρ) (c : WiredClient n σ ρ Content Thread) :
    WiredMove n σ → Option (WiredEvent n σ)
  | .program p => (c.seen.next monitor program p).map fun next => (p, .act next.1)
  | .thread p action => some (p, action)

def returns (program : Program n σ ρ) (monitor : MonitorName) (c : WiredClient n σ ρ Content Thread) :
    WiredMove n σ → Option (ProcessId n × ρ)
  | .program p => c.seen.returns program monitor (.program p)
  | .thread _ _ => none

def carriesOn (c : WiredClient n σ ρ Content Thread) : WiredMove n σ → Bool
  | .thread p (.act action) => DistributedMonitor.carriesOn c.seen.system (p, action)
  | _ => true

/-- No clock wraps and no message is too long. -/
abbrev Run (communicator : ICommunicator n Content Thread) (serialization : Serialization σ)
    (setup : Setup n σ) (monitor : MonitorName) (program : Program n σ ρ) :
    Trace (WiredClient n σ ρ Content Thread) (WiredMove n σ) →
      WiredClient n σ ρ Content Thread → Prop :=
  Execution (step communicator serialization monitor program)
    (· = ⟨setup.wired communicator, fun _ => .lock, fun _ => 0⟩) fun _ c m =>
      (c.event monitor program m).all (c.wired.fits communicator serialization) = true

end WiredClient

variable {communicator : ICommunicator n Content Thread} {carrier : Carrier .simple communicator}
  {serialization : Serialization σ} {setup : Setup n σ} {monitor : MonitorName} {initial : σ}
  {program : Program n σ ρ} {c c' : WiredClient n σ ρ Content Thread} {b : Client n σ ρ}
  {letters letters' : PacketNetwork n} {action : Action n σ} {self source : ProcessId n}
  {m : WiredMove n σ} {moves : Trace (WiredClient n σ ρ Content Thread) (WiredMove n σ)}

def Wire.LetterThread.ahead {limit : ℕ} : Wire.LetterThread n limit → ℕ
  | .updated _ _ => 3
  | .listening => 2
  | .accepted _ _ _ => 1
  | .read _ _ => 0

def unread (letters : PacketNetwork n) : ℕ := ∑ p, (letters.thread p).ahead

theorem unread_goto {thread : PacketThread n} (less : thread.ahead < (letters.thread self).ahead) :
    unread (letters.goto self thread) < unread letters := by
  refine Finset.sum_lt_sum (fun p _ => ?_) ⟨self, Finset.mem_univ self, ?_⟩
  · rw [Wire.Network.goto_thread]
    split_ifs with mine
    · exact mine ▸ less.le
    · exact le_rfl
  · rw [Wire.Network.goto_self]
    exact less

theorem unread_step {event : Wire.Action n}
    (stepped : Wire.letterStep letters (self, event) = some letters')
    (silent : event ∈ [.accept none source, .read, .finish]) : unread letters' < unread letters := by
  simp only [List.mem_cons, List.not_mem_nil, or_false] at silent
  rcases silent with rfl | rfl | rfl <;> cases here : letters.thread self <;>
    simp only [Wire.letterStep, here] at stepped
  case inl.listening =>
    obtain ⟨⟨letter, rest⟩, found, rfl⟩ := Option.map_eq_some_iff.1 stepped
    have less : (Wire.LetterThread.accepted none source letter : PacketThread n).ahead <
        ((letters.leave source self rest).thread self).ahead := by
      change _ < (letters.thread self).ahead
      rw [here]
      exact Nat.lt_succ_self 1
    exact unread_goto less
  case inr.inl.accepted =>
    cases stepped
    exact unread_goto (by rw [here]; exact Nat.lt_succ_self 0)
  case inr.inr.updated =>
    cases stepped
    exact unread_goto (by rw [here]; exact Nat.lt_succ_self 2)
  all_goals cases stepped

structure Plays (carrier : Carrier .simple communicator) (c : WiredClient n σ ρ Content Thread)
    (letters : PacketNetwork n) (b : Client n σ ρ) : Prop where
  carried : Carried carrier c.wired letters b.system
  position : c.position = b.position
  round : c.round = b.round

namespace Plays

theorem state (plays : Plays carrier c letters b) (p : ProcessId n) :
    (c.seen.system.process p).state = (b.system.process p).state := by
  rw [plays.carried.process p]
  rfl

theorem next (plays : Plays carrier c letters b) (p : ProcessId n) :
    c.seen.next monitor program p = b.next monitor program p := by
  have position : c.seen.position = b.position := plays.position
  have round : c.seen.round = b.round := plays.round
  simp only [Client.next, plays.state p, position, round]

theorem returns (plays : Plays carrier c letters b) (p : ProcessId n) :
    c.seen.returns program monitor (.program p) = b.returns program monitor (.program p) := by
  have position : c.seen.position = b.position := plays.position
  have round : c.seen.round = b.round := plays.round
  simp only [Client.returns, plays.state p, position, round]

theorem carriesOn (plays : Plays carrier c letters b) (p : ProcessId n) (action : Action n σ) :
    DistributedMonitor.carriesOn c.seen.system (p, action) =
      DistributedMonitor.carriesOn b.system (p, action) := by
  have main : (c.seen.system.process p).main = (b.system.process p).main := by
    rw [plays.carried.process p]
    rfl
  simp only [DistributedMonitor.carriesOn, main]

theorem step (plays : Plays carrier c letters b)
    (fits : (c.event monitor program m).all (c.wired.fits communicator serialization) = true)
    (moved : c.step communicator serialization monitor program m = some c') :
    (c.returns program monitor m = none ∧ ∃ letters', unread letters' < unread letters ∧
      Plays carrier c' letters' b) ∨
    ∃ m' b' letters', b.step serialization monitor program m' = some b' ∧
      Plays carrier c' letters' b' ∧
      b.returns program monitor m' = c.returns program monitor m ∧
      (c.carriesOn m = true → b.carriesOn m' = true) := by
  have carried := plays.carried
  cases m with
  | program p =>
    obtain ⟨⟨action, position⟩, next, goes⟩ := Option.bind_eq_some_iff.1 moved
    obtain ⟨wired, taken, rfl⟩ := Option.map_eq_some_iff.1 goes
    have may : c.wired.fits communicator serialization (p, .act action) = true := by
      rw [WiredClient.event, next] at fits
      exact fits
    obtain ⟨letters', a', -, stepped, carried'⟩ := carried.act may taken
    rw [plays.next p] at next
    let b' : Client n σ ρ :=
      { system := a'
        position := Function.update b.position p position
        round := if position.isLock then Function.update b.round p (b.round p + 1) else b.round }
    refine .inr ⟨.program p, b', letters', ?_, ⟨carried', ?_, ?_⟩, (plays.returns p).symm, fun _ => rfl⟩
    · simp only [Client.step, next, stepped, Option.bind_eq_bind, Option.bind_some]
      rfl
    · rw [plays.position]
    · rw [plays.round]
  | thread p action =>
    simp only [WiredClient.step] at moved
    split_ifs at moved with called
    obtain ⟨wired, taken, rfl⟩ := Option.map_eq_some_iff.1 moved
    have may : c.wired.fits communicator serialization (p, action) = true := fits
    have turns : ∀ letters', Carried carrier wired letters' b.system →
        Plays carrier { c with wired } letters' b :=
      fun letters' carried' => ⟨carried', plays.position, plays.round⟩
    have moves : ∀ letters' a', Carried carrier wired letters' a' →
        Plays carrier { c with wired } letters' { b with system := a' } :=
      fun letters' a' carried' => ⟨carried', plays.position, plays.round⟩
    cases action with
    | act action =>
      obtain ⟨letters', a', -, stepped, carried'⟩ := carried.act may taken
      have internal : ¬action.isCall = true := called
      refine .inr ⟨.thread p action, { b with system := a' }, letters', ?_, moves _ _ carried', rfl,
        fun on => (plays.carriesOn p action).symm.trans on⟩
      simp only [Client.step, if_neg internal, stepped, Option.map_some]
    | accept source =>
      obtain ⟨letters', stepped, carried'⟩ := carried.accept taken
      exact .inl ⟨rfl, letters', unread_step stepped (List.mem_cons_self ..), turns _ carried'⟩
    | read =>
      obtain ⟨letters', stepped, carried'⟩ := carried.read taken
      have silent : Wire.Action.read ∈ [Wire.Action.accept none p, .read, .finish] := by simp
      exact .inl ⟨rfl, letters', unread_step stepped silent, turns _ carried'⟩
    | update =>
      obtain ⟨letters', a', source, letter, -, -, received, carried'⟩ := carried.update may taken
      refine .inr ⟨.thread p (.receive source), { b with system := a' }, letters', ?_,
        moves _ _ carried', rfl, fun _ => rfl⟩
      simp only [Client.step, received, Option.map_some]
      rfl
    | finish =>
      obtain ⟨letters', a', stepped, ⟨-, rfl⟩ | ⟨other, -⟩, carried'⟩ := carried.finish taken
      · have silent : Wire.Action.finish ∈ [Wire.Action.accept none p, .read, .finish] := by simp
        exact .inl ⟨rfl, letters', unread_step stepped silent, turns _ carried'⟩
      · cases other

end Plays

theorem plays_run (carrier : Carrier .simple communicator)
    (run : WiredClient.Run communicator serialization setup monitor program moves c) :
    ∃ moves' b letters, Client.Run serialization setup monitor program moves' b ∧
      Plays carrier c letters b ∧ recorded (Client.returns program monitor) moves' =
        recorded (WiredClient.returns program monitor) moves := by
  apply run.history_invariant (I := fun moves c => ∃ moves' b letters,
    Client.Run serialization setup monitor program moves' b ∧ Plays carrier c letters b ∧
      recorded (Client.returns program monitor) moves' =
        recorded (WiredClient.returns program monitor) moves)
  · rintro _ rfl
    exact ⟨[], _, _, .start rfl, ⟨carried_start carrier setup, rfl, rfl⟩, rfl⟩
  · intro moves c m c' _ ⟨moves', b, letters, run', plays, same⟩ fits moved
    rcases plays.step fits moved with
      ⟨nothing, letters', -, plays'⟩ | ⟨m', b', letters', moved', plays', returns, -⟩
    · exact ⟨moves', b, letters', run', plays', by rw [recorded_none nothing, same]⟩
    · refine ⟨(b, m') :: moves', b', letters', .next run' trivial moved', plays', ?_⟩
      cases shown : c.returns program monitor m with
      | none => rw [recorded_none shown, recorded_none (returns.trans shown), same]
      | some result => rw [recorded_some shown, recorded_some (returns.trans shown), same]

/-- Entries of two processes are atomic over MPI: what they return, when every packet goes through
the bytes of the simple communicator, is what they return when every entry is a single step. -/
theorem mpi_entries_atomic {setup : Setup 2 σ} {program : Program 2 σ ρ}
    {c : WiredClient 2 σ ρ Wire.SimpleContent (Wire.SimpleThread 2)}
    {moves : Trace (WiredClient 2 σ ρ Wire.SimpleContent (Wire.SimpleThread 2)) (WiredMove 2 σ)}
    (shares : ∀ p, setup.monitors p = [monitor])
    (alike : ∀ p, setup.state p monitor.1 = initial)
    (restores : ∀ old state,
      serialization.restoreState monitor old (serialization.saveState monitor state) = state)
    (short : monitor.1.length ≠ 255)
    (run : WiredClient.Run (mpiSimpleCommunicator 2) serialization setup monitor program moves c) :
    ∃ history a, Sequential.Run program initial history a ∧
      recorded (Sequential.returns program) history =
        recorded (WiredClient.returns program monitor) moves := by
  obtain ⟨moves', b, letters, run', -, same⟩ := plays_run (simpleCarrier 2) run
  obtain ⟨history, a, sequential, returned, -⟩ :=
    linearized shares alike restores (orders_two short) run'
  exact ⟨history, a, sequential, returned.trans same⟩

def Move.onWire : Move n σ → List (WiredMove n σ)
  | .thread p (.receive source) =>
      [.thread p (.accept source), .thread p .read, .thread p .update, .thread p .finish]
  | .thread p action => [.thread p (.act action)]
  | .program p => [.program p]

theorem mpi_entries_atomic_two : ∃ moves c, WiredClient.Run (mpiSimpleCommunicator 2) unary (shared 2)
      board exchange moves c ∧
    ∃ history a, Sequential.Run exchange 0 history a ∧
      recorded (Sequential.returns exchange) history = [(0, 5), (1, 5)] := by
  obtain ⟨moves, c, run, reached⟩ := exists_execution
    (WiredClient.step (mpiSimpleCommunicator 2) unary board exchange)
    ⟨(shared 2).wired (mpiSimpleCommunicator 2), fun _ => .lock, fun _ => 0⟩
    (fun _ c m => (c.event board exchange m).all (c.wired.fits (mpiSimpleCommunicator 2) unary) = true)
    ((Move.handOver 0 1 1 2).flatMap Move.onWire)
    (fun moves _ => recorded (WiredClient.returns exchange board) moves = [(0, 5), (1, 5)])
    (by decide +kernel)
  obtain ⟨history, a, sequential, same⟩ := mpi_entries_atomic (by decide) (fun p => rfl)
    (fun old state => List.length_replicate) (by decide) run
  exact ⟨moves, c, run, history, a, sequential, same.trans (of_decide_eq_true reached)⟩

end DistributedMonitor
