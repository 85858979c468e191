import DistributedMonitor.ProducerConsumer
import DistributedMonitor.Realization
import DistributedMonitor.WiredEntries

/-! The examples over MPI. What two processes exchange with whole packets they exchange through the
bytes of the simple communicator, and they go on there as they do with whole packets: a receive
takes more steps, but only so many. -/

namespace DistributedMonitor
open Library

variable {n : ℕ} {σ ρ Content Thread : Type} {communicator : ICommunicator n Content Thread}
  {carrier : Carrier .simple communicator} {serialization : Serialization σ} {setup : Setup n σ}
  {monitor : MonitorName} {program : Program n σ ρ} {c : WiredClient n σ ρ Content Thread}
  {b b' : Client n σ ρ} {letters : PacketNetwork n} {moves : Trace (Client n σ ρ) (Move n σ)}
  {m : Move n σ} {p : ProcessId n}

/-- The next move might wrap a clock or send a message that is too long. -/
def WiredClient.Overflows (communicator : ICommunicator n Content Thread)
    (serialization : Serialization σ) (monitor : MonitorName) (program : Program n σ ρ)
    (c : WiredClient n σ ρ Content Thread) : Prop :=
  ∃ m, c.carriesOn m = true ∧
    (c.event monitor program m).all (c.wired.fits communicator serialization) = false

theorem WiredClient.fits_of_roomy (roomy : ¬c.Overflows communicator serialization monitor program)
    {m : WiredMove n σ} (on : c.carriesOn m = true) :
    (c.event monitor program m).all (c.wired.fits communicator serialization) = true :=
  Bool.eq_true_of_not_eq_false fun fails => roomy ⟨m, on, fails⟩

/-- No receiving thread has a stamp to rewrite: with the simple communicator none ever does. -/
def Client.Steady (b : Client n σ ρ) : Prop :=
  ∀ p packet, (b.system.process p).receiving ≠ .updating packet

namespace Plays

theorem finished (plays : Plays carrier c letters b) (p : ProcessId n) :
    c.seen.finished p = b.finished p := by
  have position : c.seen.position = b.position := plays.position
  have round : c.seen.round = b.round := plays.round
  simp only [Client.finished, position, round]

theorem settled (plays : Plays carrier c letters b) (steady : b.Steady)
    (here : letters.thread p = .listening) : Settled .simple c.wired letters p := by
  refine .inl ⟨here, fun packet updating => steady p packet ?_⟩
  have hears := plays.carried.hears p
  rw [here, updating] at hears
  generalize (b.system.process p).receiving = receiving at hears ⊢
  cases hears
  rfl

theorem program_moves (plays : Plays carrier c letters b) (steady : b.Steady)
    (roomy : ¬c.Overflows communicator serialization monitor program)
    (here : letters.thread p = .listening)
    (moved : b.step serialization monitor program (.program p) = some b') :
    (c.step communicator serialization monitor program (.program p)).isSome = true := by
  obtain ⟨⟨action, position⟩, next, goes⟩ := Option.bind_eq_some_iff.1 moved
  obtain ⟨system, taken, -⟩ := Option.bind_eq_some_iff.1 goes
  have other : action.isReceive = false := by
    have called := next_isCall next
    cases action <;> first | rfl | cases called
  have next' : c.seen.next monitor program p = some (action, position) := (plays.next p).trans next
  have fits := WiredClient.fits_of_roomy roomy (m := .program p) rfl
  rw [WiredClient.event, next'] at fits
  obtain ⟨process, network, wired, -⟩ :=
    plays.carried.acts_on (plays.settled steady here) other fits taken
  simp only [WiredClient.step, next', wired, Option.bind_some, Option.map_some, Option.isSome_some]

theorem thread_moves (plays : Plays carrier c letters b) (steady : b.Steady)
    (roomy : ¬c.Overflows communicator serialization monitor program)
    (here : letters.thread p = .listening) {action : Action n σ}
    (on : b.carriesOn (.thread p action) = true)
    (moved : b.step serialization monitor program (.thread p action) = some b') :
    ∃ m, c.carriesOn m = true ∧
      (c.step communicator serialization monitor program m).isSome = true := by
  simp only [Client.step] at moved
  split_ifs at moved with called
  obtain ⟨system, taken, -⟩ := Option.map_eq_some_iff.1 moved
  by_cases other : action.isReceive = false
  · have on' : c.carriesOn (.thread p (.act action)) = true := (plays.carriesOn p action).trans on
    obtain ⟨process, network, wired, -⟩ := plays.carried.acts_on (plays.settled steady here) other
      (WiredClient.fits_of_roomy roomy on') taken
    have internal : ¬(WiredAction.act action).act?.any Action.isCall = true := called
    refine ⟨_, on', ?_⟩
    simp only [WiredClient.step, if_neg internal, wired, Option.map_some, Option.isSome_some]
  · cases action with
    | receive source =>
      simp only [DistributedMonitor.step, System.receive] at taken
      split at taken
      next raw rest listens head =>
        have idle := plays.carried.settled_listening (plays.settled steady here) (steady p)
        have waiting : letters.channel source p ≠ [] := by
          intro nothing
          have means := plays.carried.channel source p
          rw [here, nothing, head] at means
          cases means
        have accepts := plays.carried.accepts serialization here (idle.2.trans listens) waiting
        obtain ⟨wired, taken'⟩ := Option.isSome_iff_exists.1 accepts
        refine ⟨.thread p (.accept source), rfl, ?_⟩
        simp only [WiredClient.step, taken', WiredAction.act?, Option.any_none, Bool.false_eq_true,
          if_false, Option.map_some, Option.isSome_some]
      next => cases taken
    | updateTimestamp =>
      obtain ⟨outcome, acts, -⟩ := step_act (by simp) taken
      obtain ⟨process, updates, -⟩ := Option.map_eq_some_iff.1 acts
      unfold Process.updateTimestamp at updates
      split at updates
      next packet updating => exact absurd updating (steady p packet)
      next => cases updates
    | _ => exact absurd rfl other

theorem goes_on (plays : Plays carrier c letters b) (steady : b.Steady)
    (roomy : ¬c.Overflows communicator serialization monitor program)
    (possible : ¬b.Halted serialization monitor program) :
    ∃ m, c.carriesOn m = true ∧
      (c.step communicator serialization monitor program m).isSome = true := by
  by_cases busy : ∃ p, ∃ action : WiredAction n σ, receiveNext (letters.thread p) = some action
  · obtain ⟨p, action, next⟩ := busy
    obtain ⟨wired, taken⟩ :=
      Option.isSome_iff_exists.1 (plays.carried.turns serialization next)
    have receive : c.carriesOn (.thread p action) = true ∧ action.act? = none := by
      cases here : letters.thread p with
      | listening =>
        rw [here] at next
        cases next
      | _ =>
        rw [here] at next
        cases next
        exact ⟨rfl, rfl⟩
    refine ⟨.thread p action, receive.1, ?_⟩
    simp only [WiredClient.step, taken, receive.2, Option.any_none, Bool.false_eq_true, if_false,
      Option.map_some, Option.isSome_some]
  · have here : ∀ p, letters.thread p = .listening := fun p =>
      receiveNext_none (by_contra fun other => busy ⟨p, Option.ne_none_iff_exists'.1 other⟩)
    obtain ⟨m, b', on, moved⟩ := moves_of_not_halted possible
    cases m with
    | program p => exact ⟨.program p, rfl, plays.program_moves steady roomy (here p) moved⟩
    | thread p action => exact plays.thread_moves steady roomy (here p) on moved

end Plays

/-- What the programs cannot avoid with whole packets they cannot avoid over MPI. -/
theorem carried_on {goal : Client n σ ρ → Prop} {goal' : WiredClient n σ ρ Content Thread → Prop}
    (carrier : Carrier .simple communicator)
    (possible : ∀ moves b, Client.Run serialization setup monitor program moves b →
      ¬b.Halted serialization monitor program)
    (steady : ∀ moves b, Client.Run serialization setup monitor program moves b → b.Steady)
    (goes : ∀ moves b, Client.Run serialization setup monitor program moves b →
      Inevitable (Client.step serialization monitor program) (fun b m => b.carriesOn m = true) goal b)
    (reaches : ∀ c letters b, Plays carrier c letters b → goal b → goal' c)
    {moves : Trace (WiredClient n σ ρ Content Thread) (WiredMove n σ)}
    (run : WiredClient.Run communicator serialization setup monitor program moves c) :
    Inevitable (WiredClient.step communicator serialization monitor program)
      (fun c m => c.carriesOn m = true)
      (fun c => c.Overflows communicator serialization monitor program ∨ goal' c) c := by
  let R : Client n σ ρ → WiredClient n σ ρ Content Thread → ℕ → Prop := fun b c r =>
    ∃ moves letters, Client.Run serialization setup monitor program moves b ∧
      Plays carrier c letters b ∧ unread letters = r
  obtain ⟨moves', b, letters, run', plays, -⟩ := plays_run carrier run
  refine (goes moves' b run').transferred (R := R) ?_ ?_ ?_ ⟨moves', letters, run', plays, rfl⟩
  · rintro b c r ⟨moves, letters, run, plays, -⟩ short
    obtain ⟨m, on, moved⟩ := plays.goes_on (steady moves b run) (fun overflows => short (.inl overflows))
      (possible moves b run)
    obtain ⟨c', moved⟩ := Option.isSome_iff_exists.1 moved
    exact ⟨m, c', on, moved⟩
  · rintro b c r m c' ⟨moves, letters, run, plays, rfl⟩ short on moved
    have fits := WiredClient.fits_of_roomy (fun overflows => short (.inl overflows)) on
    rcases plays.step fits moved with
      ⟨-, letters', less, plays'⟩ | ⟨m', b', letters', moved', plays', -, on'⟩
    · exact .inl ⟨_, less, moves, letters', run, plays', rfl⟩
    · exact .inr ⟨m', b', _, on' on, moved', _, letters', .next run trivial moved', plays', rfl⟩
  · rintro b c r ⟨moves, letters, -, plays, -⟩ holds
    exact .inr (reaches c letters b plays holds)

section
variable {buffering : Buffering σ ρ} {requests : ℕ → ρ} {initial : σ} {setup : Setup 2 σ}
  {c : WiredClient 2 σ ρ Wire.SimpleContent (Wire.SimpleThread 2)}
  {moves : Trace (WiredClient 2 σ ρ Wire.SimpleContent (Wire.SimpleThread 2)) (WiredMove 2 σ)}

theorem wired_delivers (delivers : ∀ moves b,
      Client.Run serialization setup monitor (buffering.program requests) moves b →
        buffering.Delivers requests monitor moves b)
    (run : WiredClient.Run (mpiSimpleCommunicator 2) serialization setup monitor
      (buffering.program requests) moves c) :
    returnedBy isProducer
        (recorded (WiredClient.returns (buffering.program requests) monitor) moves) =
      (List.range (c.seen.finished 0)).map requests ∧
    ∃ values, values.length ≤ buffering.size ∧
      (List.range (c.seen.finished 0)).map requests = returnedBy isConsumer
        (recorded (WiredClient.returns (buffering.program requests) monitor) moves) ++ values := by
  obtain ⟨moves', b, letters, run', plays, same⟩ := plays_run (simpleCarrier 2) run
  obtain ⟨produced, consumed, -⟩ := delivers moves' b run'
  rw [plays.finished, ← same]
  exact ⟨produced, consumed⟩

/-- What one process has produced the other has consumed over MPI, each value once and in order,
save for what the buffer holds. -/
theorem mpi_buffers_deliver (empty : buffering.Holds initial [])
    (shares : ∀ p, setup.monitors p = [monitor]) (alike : ∀ p, setup.state p monitor.1 = initial)
    (restores : ∀ old state,
      serialization.restoreState monitor old (serialization.saveState monitor state) = state)
    (short : monitor.1.length ≠ 255)
    (run : WiredClient.Run (mpiSimpleCommunicator 2) serialization setup monitor
      (buffering.program requests) moves c) :
    returnedBy isProducer
        (recorded (WiredClient.returns (buffering.program requests) monitor) moves) =
      (List.range (c.seen.finished 0)).map requests ∧
    ∃ values, values.length ≤ buffering.size ∧
      (List.range (c.seen.finished 0)).map requests = returnedBy isConsumer
        (recorded (WiredClient.returns (buffering.program requests) monitor) moves) ++ values := by
  exact wired_delivers (fun _ _ run => Buffering.delivers empty shares alike restores short run) run

theorem mpi_buffers_deliver_two : ∃ moves c,
    WiredClient.Run (mpiSimpleCommunicator 2) BufferMonitor.serialization
      (BufferMonitor.setup 2 [99] [99]) BufferMonitor.testMon
      ((BufferMonitor.buffering [99] [99]).program BufferMonitor.request) moves c ∧
    returnedBy isConsumer (recorded (WiredClient.returns ((BufferMonitor.buffering [99] [99]).program
      BufferMonitor.request) BufferMonitor.testMon) moves) = [0] ∧
    ∃ values, values.length ≤ maxQueueSize ∧
      (List.range (c.seen.finished 0)).map BufferMonitor.request = [0] ++ values := by
  obtain ⟨moves, c, run, reached⟩ := exists_execution
    (WiredClient.step (mpiSimpleCommunicator 2) BufferMonitor.serialization BufferMonitor.testMon
      ((BufferMonitor.buffering [99] [99]).program BufferMonitor.request))
    ⟨(BufferMonitor.setup 2 [99] [99]).wired (mpiSimpleCommunicator 2), fun _ => .lock, fun _ => 0⟩
    (fun _ c m => (c.event BufferMonitor.testMon ((BufferMonitor.buffering [99] [99]).program
      BufferMonitor.request) m).all
        (c.wired.fits (mpiSimpleCommunicator 2) BufferMonitor.serialization) = true)
    ((Move.handOver 1 0 3 3).flatMap Move.onWire)
    (fun moves _ => returnedBy isConsumer (recorded (WiredClient.returns
      ((BufferMonitor.buffering [99] [99]).program BufferMonitor.request) BufferMonitor.testMon)
        moves) = [0])
    (by decide +kernel)
  obtain ⟨-, values, few, consumed⟩ := mpi_buffers_deliver (BufferMonitor.holds_nothing [99] [99])
    (fun p => rfl) (fun p => rfl) BufferMonitor.restores (by decide) run
  rw [of_decide_eq_true reached] at consumed
  exact ⟨moves, c, run, of_decide_eq_true reached, values, few, consumed⟩

theorem mpi_array_delivers (full empty : CondName)
    {c : WiredClient 2 BufferMonitor Int8 Wire.SimpleContent (Wire.SimpleThread 2)}
    {moves : Trace (WiredClient 2 BufferMonitor Int8 Wire.SimpleContent (Wire.SimpleThread 2))
      (WiredMove 2 BufferMonitor)}
    (run : WiredClient.Run (mpiSimpleCommunicator 2) BufferMonitor.serialization
      (BufferMonitor.setup 2 full empty) BufferMonitor.testMon
      ((BufferMonitor.buffering full empty).program BufferMonitor.request) moves c) :
    ∃ values, values.length ≤ maxQueueSize ∧
      (List.range (c.seen.finished 0)).map BufferMonitor.request = returnedBy isConsumer
        (recorded (WiredClient.returns ((BufferMonitor.buffering full empty).program
          BufferMonitor.request) BufferMonitor.testMon) moves) ++ values :=
  (wired_delivers (fun _ _ run => Buffering.delivers (BufferMonitor.holds_nothing full empty)
    (fun p => rfl) (fun p => rfl) BufferMonitor.restores (by decide) run) run).2

theorem mpi_queue_delivers [Inhabited ρ] (full empty : CondName) (maxSize : ℕ) (unlockFirst : Bool)
    (requests : ℕ → ρ) (serialization : Serialization (List ρ))
    (restores : ∀ old queue, serialization.restoreState BufferMonitor.testMon old
      (serialization.saveState BufferMonitor.testMon queue) = queue)
    {c : WiredClient 2 (List ρ) ρ Wire.SimpleContent (Wire.SimpleThread 2)}
    {moves : Trace (WiredClient 2 (List ρ) ρ Wire.SimpleContent (Wire.SimpleThread 2))
      (WiredMove 2 (List ρ))}
    (run : WiredClient.Run (mpiSimpleCommunicator 2) serialization
      (QueueMonitor.setup 2 ρ full empty) BufferMonitor.testMon
      ((QueueMonitor.buffering ρ full empty maxSize unlockFirst).program requests) moves c) :
    ∃ values, values.length ≤ maxSize ∧
      (List.range (c.seen.finished 0)).map requests = returnedBy isConsumer
        (recorded (WiredClient.returns ((QueueMonitor.buffering ρ full empty maxSize
          unlockFirst).program requests) BufferMonitor.testMon) moves) ++ values :=
  (wired_delivers (fun _ _ run => Buffering.delivers
    (QueueMonitor.holds_nothing full empty maxSize unlockFirst) (fun p => rfl) (fun p => rfl)
      restores (by decide) run) run).2

theorem wired_go_on (empty : buffering.Holds initial [])
    (shares : ∀ p, setup.monitors p = [monitor]) (alike : ∀ p, setup.state p monitor.1 = initial)
    (restores : ∀ old state,
      serialization.restoreState monitor old (serialization.saveState monitor state) = state)
    (short : monitor.1.length < 128)
    (exchanges : (buffering.program requests : Program 2 σ ρ).Exchanges initial)
    (registered : ∀ p q : ProcessId 2, (buffering.program requests p 0).waitsOn ∈ setup.conditions q)
    (produces : ∀ request, (buffering.produce request).unlockFirst = false)
    (consumes : buffering.consume.unlockFirst = false)
    (run : WiredClient.Run (mpiSimpleCommunicator 2) serialization setup monitor
      (buffering.program requests) moves c) (k : ℕ) :
    Inevitable (WiredClient.step (mpiSimpleCommunicator 2) serialization monitor
        (buffering.program requests))
      (fun c m => c.carriesOn m = true)
      (fun c => c.Overflows (mpiSimpleCommunicator 2) serialization monitor
        (buffering.program requests) ∨ ∀ p, k ≤ c.seen.finished p) c := by
  refine carried_on (simpleCarrier 2) (fun moves b run => ?_) (fun moves b run => ?_)
    (fun moves b run => Buffering.go_on_inside empty shares alike restores short exchanges registered
      produces consumes run k) (fun c letters b plays far p => ?_) run
  · exact goes_on shares alike restores (Nat.ne_of_lt (short.trans (by decide))) exchanges short
      registered run (entries_handled shares short exchanges registered
        (Buffering.inside produces consumes) run)
  · have sound : b.Sound setup serialization monitor initial (buffering.program requests) moves :=
      sound_run run
    exact not_updating sound.run
  · rw [plays.finished]
    exact far p

/-- Both get through any number of rounds over MPI, unless a clock is about to wrap. -/
theorem mpi_buffers_go_on (empty : buffering.Holds initial [])
    (shares : ∀ p, setup.monitors p = [monitor]) (alike : ∀ p, setup.state p monitor.1 = initial)
    (restores : ∀ old state,
      serialization.restoreState monitor old (serialization.saveState monitor state) = state)
    (short : monitor.1.length < 128)
    (exchanges : (buffering.program requests : Program 2 σ ρ).Exchanges initial)
    (registered : ∀ p q : ProcessId 2, (buffering.program requests p 0).waitsOn ∈ setup.conditions q)
    (produces : ∀ request, (buffering.produce request).unlockFirst = false)
    (consumes : buffering.consume.unlockFirst = false)
    (run : WiredClient.Run (mpiSimpleCommunicator 2) serialization setup monitor
      (buffering.program requests) moves c) (k : ℕ) :
    Inevitable (WiredClient.step (mpiSimpleCommunicator 2) serialization monitor
        (buffering.program requests))
      (fun c m => c.carriesOn m = true)
      (fun c => c.Overflows (mpiSimpleCommunicator 2) serialization monitor
        (buffering.program requests) ∨ ∀ p, k ≤ c.seen.finished p) c := by
  exact wired_go_on empty shares alike restores short exchanges registered produces consumes run k

theorem mpi_buffers_go_on_two : ∃ moves c,
    WiredClient.Run (mpiSimpleCommunicator 2) BufferMonitor.serialization
      (BufferMonitor.setup 2 [99] [99]) BufferMonitor.testMon
      ((BufferMonitor.buffering [99] [99]).program BufferMonitor.request) moves c ∧
    (c.wired.process 1).main.asleep [99] = true ∧
    Inevitable (WiredClient.step (mpiSimpleCommunicator 2) BufferMonitor.serialization
        BufferMonitor.testMon ((BufferMonitor.buffering [99] [99]).program BufferMonitor.request))
      (fun c m => c.carriesOn m = true)
      (fun c => c.Overflows (mpiSimpleCommunicator 2) BufferMonitor.serialization
        BufferMonitor.testMon ((BufferMonitor.buffering [99] [99]).program BufferMonitor.request) ∨
          ∀ p, 2 ≤ c.seen.finished p) c := by
  obtain ⟨moves, c, run, reached⟩ := exists_execution
    (WiredClient.step (mpiSimpleCommunicator 2) BufferMonitor.serialization BufferMonitor.testMon
      ((BufferMonitor.buffering [99] [99]).program BufferMonitor.request))
    ⟨(BufferMonitor.setup 2 [99] [99]).wired (mpiSimpleCommunicator 2), fun _ => .lock, fun _ => 0⟩
    (fun _ c m => (c.event BufferMonitor.testMon ((BufferMonitor.buffering [99] [99]).program
      BufferMonitor.request) m).all
        (c.wired.fits (mpiSimpleCommunicator 2) BufferMonitor.serialization) = true)
    ((Move.enter 1).flatMap Move.onWire)
    (fun _ c => (c.wired.process 1).main.asleep [99]) (by decide +kernel)
  exact ⟨moves, c, run, reached, mpi_buffers_go_on (BufferMonitor.holds_nothing [99] [99])
    (fun p => rfl) (fun p => rfl) BufferMonitor.restores (by decide)
    (BufferMonitor.exchanges [99] [99]) (BufferMonitor.registered [99] [99]) (fun _ => rfl) rfl run 2⟩

theorem mpi_array_goes_on (full empty : CondName)
    {c : WiredClient 2 BufferMonitor Int8 Wire.SimpleContent (Wire.SimpleThread 2)}
    {moves : Trace (WiredClient 2 BufferMonitor Int8 Wire.SimpleContent (Wire.SimpleThread 2))
      (WiredMove 2 BufferMonitor)}
    (run : WiredClient.Run (mpiSimpleCommunicator 2) BufferMonitor.serialization
      (BufferMonitor.setup 2 full empty) BufferMonitor.testMon
      ((BufferMonitor.buffering full empty).program BufferMonitor.request) moves c) (k : ℕ) :
    Inevitable (WiredClient.step (mpiSimpleCommunicator 2) BufferMonitor.serialization
        BufferMonitor.testMon ((BufferMonitor.buffering full empty).program BufferMonitor.request))
      (fun c m => c.carriesOn m = true)
      (fun c => c.Overflows (mpiSimpleCommunicator 2) BufferMonitor.serialization
        BufferMonitor.testMon ((BufferMonitor.buffering full empty).program BufferMonitor.request) ∨
          ∀ p, k ≤ c.seen.finished p) c :=
  wired_go_on (BufferMonitor.holds_nothing full empty) (fun p => rfl) (fun p => rfl)
    BufferMonitor.restores (by decide) (BufferMonitor.exchanges full empty)
    (BufferMonitor.registered full empty) (fun _ => rfl) rfl run k

theorem mpi_queue_goes_on [Inhabited ρ] (full empty : CondName) {maxSize : ℕ} (room : 0 < maxSize)
    (requests : ℕ → ρ) (serialization : Serialization (List ρ))
    (restores : ∀ old queue, serialization.restoreState BufferMonitor.testMon old
      (serialization.saveState BufferMonitor.testMon queue) = queue)
    {c : WiredClient 2 (List ρ) ρ Wire.SimpleContent (Wire.SimpleThread 2)}
    {moves : Trace (WiredClient 2 (List ρ) ρ Wire.SimpleContent (Wire.SimpleThread 2))
      (WiredMove 2 (List ρ))}
    (run : WiredClient.Run (mpiSimpleCommunicator 2) serialization
      (QueueMonitor.setup 2 ρ full empty) BufferMonitor.testMon
      ((QueueMonitor.buffering ρ full empty maxSize false).program requests) moves c) (k : ℕ) :
    Inevitable (WiredClient.step (mpiSimpleCommunicator 2) serialization BufferMonitor.testMon
        ((QueueMonitor.buffering ρ full empty maxSize false).program requests))
      (fun c m => c.carriesOn m = true)
      (fun c => c.Overflows (mpiSimpleCommunicator 2) serialization BufferMonitor.testMon
        ((QueueMonitor.buffering ρ full empty maxSize false).program requests) ∨
          ∀ p, k ≤ c.seen.finished p) c :=
  wired_go_on (QueueMonitor.holds_nothing full empty maxSize false) (fun p => rfl) (fun p => rfl)
    restores (by decide) (QueueMonitor.exchanges full empty maxSize false room requests)
    (QueueMonitor.registered full empty maxSize false requests) (fun _ => rfl) rfl run k

end

end DistributedMonitor
