import DistributedMonitor.Entries

/-! The programs refine the sequential machine. An entry takes its step where its body ends;
until then only its own process has seen anything of it. -/

namespace DistributedMonitor
open Library

variable {n : ℕ} {σ ρ : Type} {serialization : Serialization σ} {setup : Setup n σ}
  {monitor : MonitorName} {initial : σ} {entry : Entry σ ρ} {program : Program n σ ρ}
  {c c' : Client n σ ρ} {m : Move n σ} {e : Event n σ} {p q : ProcessId n} {done : ℕ} {locals : ρ}
  {moves : Trace (Client n σ ρ) (Move n σ)} {a : Sequential n σ}

def Entry.runTo (entry : Entry σ ρ) (done : ℕ) (state : σ) : Option (σ × ρ) :=
  (entry.body.take done).foldlM (fun locals statement => statement locals) (state, entry.arguments)

theorem Entry.runTo_succ {statement : Statement σ ρ} (comes : entry.body[done]? = some statement)
    (state : σ) : entry.runTo (done + 1) state = (entry.runTo done state).bind statement := by
  rw [runTo, runTo, List.take_add_one, comes, List.foldlM_append]
  simp only [Option.toList_some, List.foldlM_cons, List.foldlM_nil, bind_pure]
  rfl

theorem Entry.runTo_length (state : σ) : entry.runTo entry.body.length state = entry.run state := by
  rw [runTo, List.take_length, run]

theorem Entry.runTo_some {state : σ} {sofar : σ × ρ} {statement : Statement σ ρ}
    (runs : (entry.run state).isSome) (before : entry.runTo done state = some sofar)
    (comes : entry.body[done]? = some statement) : (statement sofar).isSome := by
  have next := entry.runTo_succ comes state
  rw [before, Option.bind_some] at next
  rw [Entry.run, ← List.take_append_drop (done + 1) entry.body, List.foldlM_append] at runs
  rw [Entry.runTo] at next
  rw [next] at runs
  cases result : statement sofar with
  | some _ => rfl
  | none =>
    rw [result] at runs
    cases runs

def Position.past : Position ρ → Bool
  | .notify | .leave => true
  | _ => false

/-- How many bodies a process has been through. -/
def Client.finished (c : Client n σ ρ) (p : ProcessId n) : ℕ :=
  c.round p + (c.position p).past.toNat

/-- The machine is where the last body has left the variable, or the one that is under way has
found it. -/
structure Client.Tracks (program : Program n σ ρ) (value : σ) (c : Client n σ ρ)
    (a : Sequential n σ) : Prop where
  round : ∀ p, a.round p = c.finished p
  started : ∀ p done locals, c.position p = .body done locals → 0 < done →
    done < (program p (c.round p)).body.length ∧
      (program p (c.round p)).ready a.state = true ∧
      (program p (c.round p)).runTo done a.state = some (value, locals)
  unstarted : (∀ p done locals, c.position p = .body done locals → done = 0) → value = a.state

theorem holds_running {process : Process n σ} (main : process.main = .running)
    (owned : process.owned monitor.1 = true) : process.holds monitor.1 = true :=
  holds_iff.2 ⟨owned, by rw [main]; exact nofun⟩

namespace Client

theorem Sound.alone (sound : c.Sound setup serialization monitor initial program moves)
    (holds : (c.system.process p).holds monitor.1 = true)
    (started : c.position q = .body done locals) (positive : 0 < done) : q = p := by
  obtain ⟨main, owned⟩ := (started ▸ sound.here q).of_body positive
  exact holder_unique (enters_once waitsFirst_enters) sound.run (holds_running main owned) holds

theorem Does.of_program (does : c.Does serialization monitor program (.program p) e c') :
    ∃ action position, e = (p, action) ∧ c.next monitor program p = some (action, position) ∧
      c'.position = Function.update c.position p position ∧
      c'.round =
        if position.isLock then Function.update c.round p (c.round p + 1) else c.round := by
  cases does with
  | program next taken => exact ⟨_, _, rfl, next, rfl, rfl⟩

theorem Does.of_thread {action : Action n σ}
    (does : c.Does serialization monitor program (.thread p action) e c') :
    e = (p, action) ∧ action.isCall = false ∧ c' = { c with system := c'.system } := by
  cases does with
  | thread internal taken => exact ⟨rfl, internal, rfl⟩

theorem Does.elsewhere (does : c.Does serialization monitor program m e c')
    (still : m ≠ .program p) : c'.position p = c.position p ∧ c'.round p = c.round p := by
  cases does with
  | @program q action position system next taken =>
    have other : p ≠ q := fun same => still (same ▸ rfl)
    refine ⟨Function.update_of_ne other .., ?_⟩
    change (if position.isLock then Function.update c.round q (c.round q + 1) else c.round) p = _
    split_ifs
    · exact Function.update_of_ne other ..
    · rfl
  | thread => exact ⟨rfl, rfl⟩

theorem Tracks.sofar {value : σ} (tracks : c.Tracks program value a)
    (sound : c.Sound setup serialization monitor initial program moves)
    (current : ∀ p, (c.system.process p).holds monitor.1 = true →
      (c.system.process p).state monitor.1 = value)
    (main : (c.system.process p).main = .running) (here : c.position p = .body done locals) :
    done < (program p (c.round p)).body.length ∧
      (program p (c.round p)).ready a.state = true ∧
      (program p (c.round p)).runTo done a.state =
        some ((c.system.process p).state monitor.1, locals) := by
  obtain ⟨owned, first⟩ := (sound.here p).of_running main
  rw [here] at owned
  have holds := holds_running main owned
  rw [current p holds]
  cases done with
  | zero =>
    have found := tracks.unstarted fun q done' locals' started => by
      by_contra positive
      obtain rfl := sound.alone holds started (Nat.pos_of_ne_zero positive)
      rw [here] at started
      cases started
      exact positive rfl
    obtain ⟨rfl, ready⟩ := first locals here
    rw [current p holds, found] at ready
    rw [found]
    exact ⟨List.length_pos_iff.2 (program p (c.round p)).nonempty, ready, rfl⟩
  | succ done => exact tracks.started p _ locals here (Nat.succ_pos done)

theorem Tracks.goes {value : σ} (tracks : c.Tracks program value a)
    (sound : c.Sound setup serialization monitor initial program moves)
    (current : ∀ p, (c.system.process p).holds monitor.1 = true →
      (c.system.process p).state monitor.1 = value)
    (main : (c.system.process p).main = .running) (here : c.position p = .body done locals)
    (runs : (program p (a.round p)).ready a.state = true →
      ((program p (a.round p)).run a.state).isSome) : (c.next monitor program p).isSome := by
  obtain ⟨inside, ready, before⟩ := tracks.sofar sound current main here
  have round : a.round p = c.round p := by
    rw [tracks.round, Client.finished, here]
    rfl
  rw [round] at runs
  have comes := List.getElem?_eq_getElem inside
  obtain ⟨after, result⟩ := Option.isSome_iff_exists.1 (Entry.runTo_some (runs ready) before comes)
  rw [Client.next, here, Entry.next, comes]
  simp only [Option.bind_eq_bind, Option.bind_some, result]
  rfl

theorem Tracks.quiet {value : σ} (tracks : c.Tracks program value a)
    (finished : ∀ p, c'.finished p = c.finished p)
    (bodies : ∀ p done locals, 0 < done →
      (c'.position p = .body done locals ↔ c.position p = .body done locals))
    (rounds : ∀ p done locals, c.position p = .body done locals → c'.round p = c.round p) :
    c'.Tracks program value a where
  round p := by rw [finished, tracks.round]
  started p done locals started positive := by
    have before := (bodies p done locals positive).1 started
    rw [rounds p done locals before]
    exact tracks.started p done locals before positive
  unstarted nobody := by
    refine tracks.unstarted fun p done locals started => ?_
    by_contra positive
    exact positive (nobody p done locals
      ((bodies p done locals (Nat.pos_of_ne_zero positive)).2 started))

theorem Tracks.body {value : σ} (tracks : c.Tracks program value a)
    (sound : c.Sound setup serialization monitor initial program moves)
    (current : ∀ p, (c.system.process p).holds monitor.1 = true →
      (c.system.process p).state monitor.1 = value)
    (main : (c.system.process p).main = .running) (here : c.position p = .body done locals)
    {statement : Statement σ ρ} (comes : (program p (c.round p)).body[done]? = some statement)
    {state : σ} {locals' : ρ}
    (result : statement ((c.system.process p).state monitor.1, locals) = some (state, locals'))
    (round : c'.round = c.round)
    (moved : c'.position = Function.update c.position p
      (if done + 1 < (program p (c.round p)).body.length then .body (done + 1) locals'
        else (program p (c.round p)).afterBody)) :
    (done + 1 < (program p (c.round p)).body.length ∧ c'.Tracks program state a) ∨
      done + 1 = (program p (c.round p)).body.length ∧
        (program p (a.round p)).run a.state = some (state, locals') ∧
        ∃ a', a.step program p = some a' ∧ c'.Tracks program state a' := by
  obtain ⟨inside, ready, before⟩ := tracks.sofar sound current main here
  have after : (program p (c.round p)).runTo (done + 1) a.state = some (state, locals') := by
    rw [Entry.runTo_succ comes, before]
    exact result
  have own := congrFun moved p
  rw [Function.update_self] at own
  have others : ∀ q, q ≠ p → c'.position q = c.position q := by
    intro q other
    rw [moved, Function.update_of_ne other]
  have holds := holds_running main ((here ▸ sound.here p).of_running main).1
  have single : ∀ q done locals, c'.position q = .body done locals → 0 < done → q = p := by
    intro q done locals started positive
    by_contra other
    exact other (sound.alone holds (others q other ▸ started) positive)
  by_cases more : done + 1 < (program p (c.round p)).body.length
  · rw [if_pos more] at own
    refine .inl ⟨more, ?_⟩
    constructor
    · intro q
      rw [tracks.round, Client.finished, Client.finished, round]
      by_cases mine : q = p
      · rw [mine, own, here]
        rfl
      · rw [others q mine]
    · intro q done' locals'' started positive
      obtain rfl := single q done' locals'' started positive
      rw [own] at started
      cases started
      rw [round]
      exact ⟨more, ready, after⟩
    · intro nobody
      cases nobody p _ _ own
  · rw [if_neg more] at own
    have last : done + 1 = (program p (c.round p)).body.length := by omega
    have rounds : a.round p = c.round p := by
      rw [tracks.round, Client.finished, here]
      rfl
    have ran : (program p (a.round p)).run a.state = some (state, locals') := by
      rw [rounds, ← Entry.runTo_length, ← last]
      exact after
    have past : (c'.position p).past = true ∧ ∀ done locals, c'.position p ≠ .body done locals := by
      rw [own]
      unfold Entry.afterBody
      split_ifs <;> exact ⟨rfl, nofun⟩
    refine .inr ⟨last, ran, ⟨state, Function.update a.round p (a.round p + 1)⟩, ?_, ?_⟩
    · rw [Sequential.step, ran, rounds, if_pos ready]
      rfl
    · constructor
      · intro q
        rw [Client.finished, round]
        change Function.update a.round p (a.round p + 1) q = _
        by_cases mine : q = p
        · subst mine
          rw [Function.update_self, past.1, rounds]
          rfl
        · rw [Function.update_of_ne mine, tracks.round, Client.finished, others q mine]
      · intro q done' locals'' started positive
        obtain rfl := single q done' locals'' started positive
        exact absurd started (past.2 _ _)
      · exact fun _ => rfl

theorem Tracks.called {value : σ} (tracks : c.Tracks program value a)
    {action : Action n σ} {position : Position ρ}
    (next : c.next monitor program p = some (action, position))
    (outside : ∀ done locals, c.position p ≠ .body done locals)
    (moved : c'.position = Function.update c.position p position)
    (round : c'.round =
      if position.isLock then Function.update c.round p (c.round p + 1) else c.round) :
    c'.Tracks program value a := by
  have behind : ∀ done locals, position = .body done locals → done = 0 := by
    intro done locals body
    subst body
    unfold Client.next at next
    cases here : c.position p with
    | body done locals => exact absurd here (outside done locals)
    | wait =>
      rw [here] at next
      cases next
      rfl
    | lock =>
      rw [here] at next
      cases next
    | notify | leave =>
      rw [here] at next
      simp only [Entry.next, Option.some.injEq, Prod.mk.injEq] at next
      have body := next.2
      split_ifs at body
  have others : ∀ q, q ≠ p → c'.position q = c.position q ∧ c'.round q = c.round q := by
    intro q other
    rw [moved, round]
    refine ⟨Function.update_of_ne other .., ?_⟩
    split_ifs
    · exact Function.update_of_ne other ..
    · rfl
  apply tracks.quiet
  · intro q
    by_cases mine : q = p
    · subst mine
      unfold Client.next at next
      rw [Client.finished, Client.finished, moved, round, Function.update_self]
      cases here : c.position q with
      | body done locals => exact absurd here (outside done locals)
      | lock | wait =>
        rw [here] at next
        cases next
        rfl
      | notify | leave =>
        rw [here] at next
        simp only [Entry.next, Option.some.injEq, Prod.mk.injEq] at next
        rw [← next.2]
        by_cases first : (program q (c.round q)).unlockFirst = true <;>
          simp [first, Position.isLock, Position.past]
    · rw [Client.finished, Client.finished, (others q mine).1, (others q mine).2]
  · intro q done locals positive
    by_cases mine : q = p
    · subst mine
      rw [moved, Function.update_self]
      constructor
      · intro body
        have start := behind done locals body
        omega
      · exact fun body => absurd body (outside done locals)
    · rw [(others q mine).1]
  · intro q done locals body
    have other : q ≠ p := by
      rintro rfl
      exact outside done locals body
    exact (others q other).2

theorem Tracks.step {value : σ}
    (tracks : c.Tracks program (lastAssigned monitor initial (systemTrace monitor program moves)) a)
    (sound : c.Sound setup serialization monitor initial program moves)
    (current : Current monitor initial (systemTrace monitor program moves) c.system)
    (does : c.Does serialization monitor program m e c')
    (updated : lastAssigned monitor initial
      ((c.system, e) :: systemTrace monitor program moves) = value) :
    c.returns program monitor m = none ∧ c'.Tracks program value a ∨
      ∃ p a', a.step program p = some a' ∧ c'.Tracks program value a' ∧
        ∃ locals, c.returns program monitor m = some (p, locals) ∧
          a.returns program p = some (p, locals) := by
  have taken := does.taken
  cases m with
  | thread p action =>
    obtain ⟨rfl, internal, system⟩ := does.of_thread
    refine .inl ⟨rfl, ?_⟩
    have unassigned : assignedTo monitor c.system (p, action) = none :=
      assignedTo_none fun state assigns => by rw [assigns] at internal; cases internal
    rw [lastAssigned_none unassigned] at updated
    rw [system]
    exact updated ▸ tracks.quiet (fun _ => rfl) (fun _ _ _ _ => .rfl) (fun _ _ _ _ => rfl)
  | program p =>
    obtain ⟨action, position, rfl, next, moved, round⟩ := does.of_program
    have main := call_main (next_isCall next) taken
    by_cases inside : ∃ done locals, c.position p = .body done locals
    · obtain ⟨done, locals, here⟩ := inside
      unfold Client.next at next
      rw [here] at next
      obtain ⟨statement, comes, next⟩ := Option.bind_eq_some_iff.1 next
      obtain ⟨⟨state, locals'⟩, result, next⟩ := Option.bind_eq_some_iff.1 next
      cases next
      rw [lastAssigned_some (assignedTo_self state)] at updated
      subst updated
      have returns : c.returns program monitor (.program p) =
          if done + 1 = (program p (c.round p)).body.length then some (p, locals') else none := by
        simp only [Client.returns, here, comes, result, Option.bind_eq_bind, Option.bind_some]
      have stays : c'.round = c.round := by
        rw [round]
        unfold Entry.afterBody
        split_ifs <;> first | rfl | contradiction
      rw [returns]
      rcases tracks.body sound current.held main here comes result stays moved with
        ⟨more, tracks'⟩ | ⟨last, ran, a', stepped, tracks'⟩
      · exact .inl ⟨if_neg more.ne, tracks'⟩
      · refine .inr ⟨p, a', stepped, tracks', locals', if_pos last, ?_⟩
        rw [Sequential.returns, ran]
        rfl
    · have outside : ∀ done locals, c.position p ≠ .body done locals :=
        fun done locals here => inside ⟨done, locals, here⟩
      have unassigned : assignedTo monitor c.system (p, action) = none := by
        refine assignedTo_none fun state assigns => ?_
        unfold Client.next at next
        cases here : c.position p with
        | body done locals => exact outside done locals here
        | _ =>
          rw [here] at next
          cases next
          cases assigns
      have nothing : c.returns program monitor (.program p) = none := by simp only [Client.returns]
      rw [lastAssigned_none unassigned] at updated
      exact .inl ⟨nothing, updated ▸ tracks.called next outside moved round⟩

end Client

/-- The machine follows every run in which the replicas make up one variable. -/
theorem linearized_of {contract : Permission (Client n σ ρ) (Move n σ)}
    (current : ∀ moves c, Execution (Client.step serialization monitor program) (· = setup.client)
      contract moves c →
        Current monitor initial (Client.systemTrace monitor program moves) c.system)
    (run : Execution (Client.step serialization monitor program) (· = setup.client) contract
      moves c) :
    ∃ history a, Sequential.Run program initial history a ∧
      recorded (Sequential.returns program) history =
        recorded (Client.returns program monitor) moves ∧
      c.Tracks program
        (lastAssigned monitor initial (Client.systemTrace monitor program moves)) a := by
  apply run.history_invariant (I := fun moves c => ∃ history a,
    Sequential.Run program initial history a ∧
      recorded (Sequential.returns program) history =
        recorded (Client.returns program monitor) moves ∧
      c.Tracks program
        (lastAssigned monitor initial (Client.systemTrace monitor program moves)) a)
  · rintro _ rfl
    exact ⟨[], _, .start rfl, rfl, fun p => rfl, nofun, fun _ => rfl⟩
  · intro moves c m c' run ⟨history, a, sequential, same, tracks⟩ _ moved
    obtain ⟨e, event, does⟩ := client_does moved
    have sound : c.Sound setup serialization monitor initial program moves :=
      sound_run (run.weaken fun _ _ _ _ => trivial)
    rw [systemTrace_cons event]
    rcases tracks.step sound (current _ _ run) does rfl with
      ⟨nothing, tracks'⟩ | ⟨p, a', stepped, tracks', locals, returns, returns'⟩
    · exact ⟨history, a, sequential, by rw [recorded_none nothing, same], tracks'⟩
    · refine ⟨(a, p) :: history, a', .next sequential trivial stepped, ?_, tracks'⟩
      rw [recorded_some returns, recorded_some returns', same]

theorem found_by_entry {a : Sequential n σ}
    (tracks : c.Tracks program
      (lastAssigned monitor initial (Client.systemTrace monitor program moves)) a)
    (sound : c.Sound setup serialization monitor initial program moves)
    (current : Current monitor initial (Client.systemTrace monitor program moves) c.system)
    (main : (c.system.process p).main = .running) (here : c.position p = .body 0 locals) :
    (program p (a.round p)).ready a.state = true ∧
      (c.system.process p).state monitor.1 = a.state := by
  obtain ⟨-, ready, found⟩ := tracks.sofar sound current.held main here
  have round : a.round p = c.round p := by
    rw [tracks.round, Client.finished, here]
    rfl
  exact ⟨round ▸ ready, (Prod.mk.inj (Option.some.inj found)).1.symm⟩

/-- Every process applies the updates of the others in the order in which they were sent. -/
def Client.inOrder (monitor : MonitorName) (program : Program n σ ρ) :
    Permission (Client n σ ρ) (Move n σ) := fun moves c m =>
  (c.event monitor program m).all
    (syncsInOrder monitor (Client.systemTrace monitor program moves) c.system) = true

instance (moves : Trace (Client n σ ρ) (Move n σ)) (c : Client n σ ρ) (m : Move n σ) :
    Decidable (Client.inOrder monitor program moves c m) :=
  inferInstanceAs (Decidable (_ = true))

abbrev Client.OrderedRun (serialization : Serialization σ) (setup : Setup n σ)
    (monitor : MonitorName) (program : Program n σ ρ) :
    Trace (Client n σ ρ) (Move n σ) → Client n σ ρ → Prop :=
  Execution (Client.step serialization monitor program) (· = setup.client)
    (Client.inOrder monitor program)

theorem ordered_run (run : Client.OrderedRun serialization setup monitor program moves c) :
    Run .simple serialization setup
      (fun trace s e => waitsFirst monitor initial trace s e ∧ syncsInOrder monitor trace s e = true)
      (Client.systemTrace monitor program moves) c.system := by
  induction run with
  | start begins =>
    subst begins
    exact .start rfl
  | @next moves c c' m run may moved ih =>
    obtain ⟨e, event, does⟩ := client_does moved
    have sound : c.Sound setup serialization monitor initial program moves :=
      sound_run (run.weaken fun _ _ _ _ => trivial)
    rw [systemTrace_cons event]
    rw [Client.inOrder, event] at may
    exact .next ih ⟨sound.may does, may⟩ does.taken

section
variable (shares : ∀ p, setup.monitors p = [monitor])
  (alike : ∀ p, setup.state p monitor.1 = initial)
  (restores : ∀ old state,
    serialization.restoreState monitor old (serialization.saveState monitor state) = state)
include shares alike restores

section
variable (orders : ∀ trace s (e : Event n σ), Run .simple serialization setup
  (waitsFirst monitor initial) trace s → syncsInOrder monitor trace s e = true)
include orders

theorem client_current (sound : c.Sound setup serialization monitor initial program moves) :
    Current monitor initial (Client.systemTrace monitor program moves) c.system :=
  current_run (fun _ _ _ may => may.1) shares alike restores
    (fun trace s e run _ => orders trace s e run) (fun _ _ _ may => may.2) sound.run

theorem linearized (run : Client.Run serialization setup monitor program moves c) :
    ∃ history a, Sequential.Run program initial history a ∧
      recorded (Sequential.returns program) history =
        recorded (Client.returns program monitor) moves ∧
      c.Tracks program
        (lastAssigned monitor initial (Client.systemTrace monitor program moves)) a :=
  linearized_of (fun _ _ run => client_current shares alike restores orders (sound_run run)) run

end

theorem ordered_current (run : Client.OrderedRun serialization setup monitor program moves c) :
    Current monitor initial (Client.systemTrace monitor program moves) c.system :=
  current_run (fun _ _ _ may => may.1.1) shares alike restores (fun _ _ _ _ may => may.2)
    (fun _ _ _ may => may.1.2) (ordered_run run)

end

/-- The entries of any number of processes are atomic in every run in which each process applies
the updates of the others in the order in which they were sent. -/
theorem entries_atomic_inOrder (shares : ∀ p, setup.monitors p = [monitor])
    (alike : ∀ p, setup.state p monitor.1 = initial)
    (restores : ∀ old state,
      serialization.restoreState monitor old (serialization.saveState monitor state) = state)
    (run : Client.OrderedRun serialization setup monitor program moves c) :
    ∃ history a, Sequential.Run program initial history a ∧
      recorded (Sequential.returns program) history =
        recorded (Client.returns program monitor) moves ∧
      (∀ p, a.round p = c.finished p) ∧
      ∀ p locals, (c.system.process p).main = .running → c.position p = .body 0 locals →
        (program p (a.round p)).ready a.state = true ∧
          (c.system.process p).state monitor.1 = a.state := by
  obtain ⟨history, a, sequential, same, tracks⟩ :=
    linearized_of (fun _ _ run => ordered_current shares alike restores run) run
  have sound : c.Sound setup serialization monitor initial program moves :=
    sound_run (run.weaken fun _ _ _ _ => trivial)
  have current := ordered_current shares alike restores run
  exact ⟨history, a, sequential, same, tracks.round, fun p locals main here =>
    found_by_entry tracks sound current main here⟩

theorem readable_of_short (short : monitor.1.length ≠ 255) (s : System n σ) (e : Event n σ) :
    syncsReadable monitor s e = true := by
  unfold syncsReadable
  split
  · exact decide_eq_true (.inr fun long => short long.1)
  · rfl

theorem orders_two {setup : Setup 2 σ} (short : monitor.1.length ≠ 255)
    (trace : Trace (System 2 σ) (Event 2 σ)) (s : System 2 σ) (e : Event 2 σ)
    (run : Run .simple serialization setup (waitsFirst monitor initial) trace s) :
    syncsInOrder monitor trace s e = true :=
  syncsInOrder_two run (readable_of_short short s e)

/-- Two processes go through the entries of a monitor one at a time: what they return is what
they return when every entry is a single step, in an order that each of them could have taken. -/
theorem entries_atomic {setup : Setup 2 σ} {program : Program 2 σ ρ} {c : Client 2 σ ρ}
    {moves : Trace (Client 2 σ ρ) (Move 2 σ)} (shares : ∀ p, setup.monitors p = [monitor])
    (alike : ∀ p, setup.state p monitor.1 = initial)
    (restores : ∀ old state,
      serialization.restoreState monitor old (serialization.saveState monitor state) = state)
    (short : monitor.1.length ≠ 255) (run : Client.Run serialization setup monitor program moves c) :
    ∃ history a, Sequential.Run program initial history a ∧
      recorded (Sequential.returns program) history =
        recorded (Client.returns program monitor) moves ∧
      (∀ p, a.round p = c.finished p) ∧
      ∀ p locals, (c.system.process p).main = .running → c.position p = .body 0 locals →
        (program p (a.round p)).ready a.state = true ∧
          (c.system.process p).state monitor.1 = a.state := by
  obtain ⟨history, a, sequential, same, tracks⟩ :=
    linearized shares alike restores (orders_two short) run
  have sound : c.Sound setup serialization monitor initial program moves := sound_run run
  have current := client_current shares alike restores (orders_two short) sound
  exact ⟨history, a, sequential, same, tracks.round, fun p locals main here =>
    found_by_entry tracks sound current main here⟩

def exchange : Program 2 ℕ ℕ := fun p _ =>
  if p.val = 0 then
    { arguments := 0, waitsOn := news, ready := (· == 5), notifies := news, unlockFirst := false
      body := [fun vars => some (vars.1, vars.1), fun vars => some (0, vars.2)]
      nonempty := by simp }
  else
    { arguments := 5, waitsOn := news, ready := (· == 0), notifies := news, unlockFirst := false
      body := [fun vars => some (vars.2, vars.2)]
      nonempty := by simp }

def Move.deliver (source recipient : ProcessId n) : List (Move n σ) :=
  [.thread recipient (.receive source), .thread recipient .dispatch]

def Move.tell (p : ProcessId n) : List (Move n σ) :=
  ((List.finRange n).filter (· ≠ p)).flatMap fun q => deliver p q

def Move.hear (p : ProcessId n) : List (Move n σ) :=
  ((List.finRange n).filter (· ≠ p)).flatMap fun q => deliver q p

def Move.enter (p : ProcessId n) : List (Move n σ) :=
  [[.program p, .thread p .queue], tell p, hear p, [.thread p .acquired, .program p,
    .thread p .announce], tell p, [.thread p .evaluate]].flatten

def Move.endWait (p : ProcessId n) : List (Move n σ) :=
  [[.thread p .subscribeConfirmations, .thread p .announceEnd], tell p, hear p,
    [.thread p .waitReturns]].flatten

def Move.handOver (p q : ProcessId n) (theirs own : ℕ) : List (Move n σ) :=
  [enter p, [.thread p .released], enter q, endWait q, List.replicate theirs (.program q),
    [.program q, .thread q .sendNotify], deliver q p, [.program q, .thread q .sendSync,
    .thread q .unlockMonitor, .thread q .released, .thread p .wake, .thread p .queue], tell q,
    tell p, hear p, [.thread p .acquired, .thread p .evaluate], endWait p,
    List.replicate own (.program p)].flatten

theorem entries_atomic_two : ∃ moves c, Client.Run unary (shared 2) board exchange moves c ∧
    ∃ history a, Sequential.Run exchange 0 history a ∧
      recorded (Sequential.returns exchange) history = [(0, 5), (1, 5)] := by
  obtain ⟨moves, c, run, reached⟩ := exists_execution (Client.step unary board exchange)
    (shared 2).client (fun _ _ _ => True) (Move.handOver 0 1 1 2)
    (fun moves _ => recorded (Client.returns exchange board) moves = [(0, 5), (1, 5)])
    (by decide +kernel)
  obtain ⟨history, a, sequential, same, -⟩ := entries_atomic (by decide) (fun p => rfl)
    (fun old state => List.length_replicate) (by decide) run
  exact ⟨moves, c, run, history, a, sequential, same.trans (of_decide_eq_true reached)⟩

def exchangeAmong : Program n ℕ ℕ := fun p => exchange ⟨p.val % 2, Nat.mod_lt _ Nat.two_pos⟩

theorem entries_atomic_inOrder_three : ∃ moves c,
    Client.OrderedRun unary (shared 3) board exchangeAmong moves c ∧
    ∃ history, ∃ a : Sequential 3 ℕ, Sequential.Run exchangeAmong 0 history a ∧
      recorded (Sequential.returns exchangeAmong) history = [(0, 5), (1, 5)] := by
  obtain ⟨moves, c, run, reached⟩ := exists_execution (Client.step unary board exchangeAmong)
    (shared 3).client (Client.inOrder board exchangeAmong) (Move.handOver 0 1 1 2)
    (fun moves _ => recorded (Client.returns exchangeAmong board) moves = [(0, 5), (1, 5)])
    (by decide +kernel)
  obtain ⟨history, a, sequential, same, -⟩ := entries_atomic_inOrder (by decide) (fun p => rfl)
    (fun old state => List.length_replicate) run
  exact ⟨moves, c, run, history, a, sequential, same.trans (of_decide_eq_true reached)⟩

end DistributedMonitor
