import DistributedMonitor.Linearization

/-! The reference that comes with the examples: the same entries in the threads of one process,
over `std::mutex` and `std::condition_variable`. What they return is what the sequential machine
returns, and whatever a distributed monitor returns they can return here. -/

namespace DistributedMonitor
open Library

variable {n : ℕ} {σ ρ : Type}

inductive LocalThread (ρ : Type) where
  | running (position : Position ρ)
  | blocked (condName : CondName) (signalled : Bool)

structure LocalMonitor (n : ℕ) (σ ρ : Type) where
  state : σ
  mutex : Option (ProcessId n)
  thread : ProcessId n → LocalThread ρ
  round : ProcessId n → ℕ

inductive LocalMove (n : ℕ) where
  | thread (p : ProcessId n)
  | notify (p : ProcessId n) (woken : Option (ProcessId n))

def LocalThread.asleep (condName : CondName) : LocalThread ρ → Bool
  | .blocked name signalled => name = condName ∧ signalled = false
  | .running _ => false

def LocalThread.signal (condName : CondName) : LocalThread ρ → LocalThread ρ
  | .blocked name signalled => .blocked name (signalled || name = condName)
  | thread => thread

namespace LocalMonitor

def goto (s : LocalMonitor n σ ρ) (p : ProcessId n) (position : Position ρ) : LocalMonitor n σ ρ :=
  { s with
    thread := Function.update s.thread p (.running position)
    round := if position.isLock then Function.update s.round p (s.round p + 1) else s.round }

def lock (s : LocalMonitor n σ ρ) (p : ProcessId n) : Option (LocalMonitor n σ ρ) :=
  if s.mutex = none then some ({ s with mutex := some p }.goto p .wait) else none

/-- `notify_all` wakes up everybody, `notify_one` anybody who sleeps. -/
def notify (all : Bool) (condName : CondName) (woken : Option (ProcessId n))
    (s : LocalMonitor n σ ρ) : Option (LocalMonitor n σ ρ) :=
  if all then some { s with thread := fun q => (s.thread q).signal condName }
  else match woken with
    | some q =>
        if (s.thread q).asleep condName then
          some { s with thread := Function.update s.thread q ((s.thread q).signal condName) }
        else none
    | none => if ∀ q, (s.thread q).asleep condName = false then some s else none

/-- A thread can wake up unsignalled. -/
def step (all : Bool) (program : Program n σ ρ) (s : LocalMonitor n σ ρ) :
    LocalMove n → Option (LocalMonitor n σ ρ)
  | .thread p =>
      let entry := program p (s.round p)
      match s.thread p with
      | .running .lock | .blocked _ _ => s.lock p
      | .running .wait =>
          if entry.ready s.state then some (s.goto p (.body 0 entry.arguments))
          else some { s with
            mutex := none
            thread := Function.update s.thread p (.blocked entry.waitsOn false) }
      | .running (.body done locals) => do
          let statement ← entry.body[done]?
          let (state, locals) ← statement (s.state, locals)
          some ({ s with state }.goto p
            (if done + 1 < entry.body.length then .body (done + 1) locals else entry.afterBody))
      | .running .leave =>
          some ({ s with mutex := none }.goto p (if entry.unlockFirst then .notify else .lock))
      | .running .notify => none
  | .notify p woken =>
      let entry := program p (s.round p)
      match s.thread p with
      | .running .notify => (s.notify all entry.notifies woken).map
          fun s => s.goto p (if entry.unlockFirst then .lock else .leave)
      | _ => none

def returns (program : Program n σ ρ) (s : LocalMonitor n σ ρ) :
    LocalMove n → Option (ProcessId n × ρ)
  | .thread p =>
      match s.thread p with
      | .running (.body done locals) =>
          if done + 1 = (program p (s.round p)).body.length then do
            let statement ← (program p (s.round p)).body[done]?
            let (_, locals) ← statement (s.state, locals)
            some (p, locals)
          else none
      | _ => none
  | .notify _ _ => none

def initially (initial : σ) : LocalMonitor n σ ρ := ⟨initial, none, fun _ => .running .lock, fun _ => 0⟩

abbrev Run (all : Bool) (program : Program n σ ρ) (initial : σ) :
    Trace (LocalMonitor n σ ρ) (LocalMove n) → LocalMonitor n σ ρ → Prop :=
  Execution (step all program) (· = initially initial) fun _ _ _ => True

end LocalMonitor

variable {all : Bool} {program : Program n σ ρ} {initial : σ} {s s' : LocalMonitor n σ ρ}
  {move : LocalMove n} {moves : Trace (LocalMonitor n σ ρ) (LocalMove n)} {a : Sequential n σ}
  {p q : ProcessId n} {entry : Entry σ ρ} {position : Position ρ}

def Position.locked (entry : Entry σ ρ) : Position ρ → Bool
  | .lock => false
  | .notify => !entry.unlockFirst
  | _ => true

def LocalThread.locked (entry : Entry σ ρ) : LocalThread ρ → Bool
  | .running position => position.locked entry
  | .blocked _ _ => false

def LocalThread.past : LocalThread ρ → Bool
  | .running position => position.past
  | .blocked _ _ => false

def LocalMonitor.finished (s : LocalMonitor n σ ρ) (p : ProcessId n) : ℕ :=
  s.round p + (s.thread p).past.toNat

theorem Entry.afterBody_cases (entry : Entry σ ρ) :
    entry.afterBody = .notify ∧ entry.unlockFirst = false ∨
      entry.afterBody = .leave ∧ entry.unlockFirst = true := by
  unfold afterBody
  cases entry.unlockFirst <;> simp

inductive LocalMonitor.Does (program : Program n σ ρ) (s : LocalMonitor n σ ρ) :
    LocalMove n → LocalMonitor n σ ρ → Prop where
  | lock {p : ProcessId n} (outside : (s.thread p).locked (program p (s.round p)) = false)
      (unfinished : (s.thread p).past = false) (free : s.mutex = none) :
      Does program s (.thread p) ({ s with mutex := some p }.goto p .wait)
  | enter {p : ProcessId n} (here : s.thread p = .running .wait)
      (ready : (program p (s.round p)).ready s.state = true) :
      Does program s (.thread p) (s.goto p (.body 0 (program p (s.round p)).arguments))
  | block {p : ProcessId n} (here : s.thread p = .running .wait)
      (unready : (program p (s.round p)).ready s.state = false) :
      Does program s (.thread p) { s with
        mutex := none
        thread := Function.update s.thread p (.blocked (program p (s.round p)).waitsOn false) }
  | body {p : ProcessId n} {done : ℕ} {locals locals' : ρ} {state : σ} {statement : Statement σ ρ}
      (here : s.thread p = .running (.body done locals))
      (comes : (program p (s.round p)).body[done]? = some statement)
      (does : statement (s.state, locals) = some (state, locals')) :
      Does program s (.thread p) ({ s with state }.goto p
        (if done + 1 < (program p (s.round p)).body.length then .body (done + 1) locals'
          else (program p (s.round p)).afterBody))
  | leave {p : ProcessId n} (here : s.thread p = .running .leave) :
      Does program s (.thread p) ({ s with mutex := none }.goto p
        (if (program p (s.round p)).unlockFirst then .notify else .lock))
  | notify {p : ProcessId n} {woken : Option (ProcessId n)} {thread : ProcessId n → LocalThread ρ}
      (here : s.thread p = .running .notify)
      (signals : ∀ q, thread q = s.thread q ∨
        thread q = (s.thread q).signal (program p (s.round p)).notifies) :
      Does program s (.notify p woken) ({ s with thread }.goto p
        (if (program p (s.round p)).unlockFirst then .lock else .leave))

theorem LocalMonitor.notify_signals {condName : CondName} {woken : Option (ProcessId n)}
    (notified : s.notify all condName woken = some s') :
    ∃ thread, s' = { s with thread } ∧
      ∀ q, thread q = s.thread q ∨ thread q = (s.thread q).signal condName := by
  unfold notify at notified
  cases all with
  | true =>
    cases notified
    exact ⟨_, rfl, fun q => .inr rfl⟩
  | false =>
    cases woken with
    | some picked =>
      simp only [Bool.false_eq_true, if_false] at notified
      split_ifs at notified
      cases notified
      refine ⟨_, rfl, fun q => ?_⟩
      by_cases same : q = picked
      · subst same
        exact .inr (Function.update_self ..)
      · exact .inl (Function.update_of_ne same ..)
    | none =>
      simp only [Bool.false_eq_true, if_false] at notified
      split_ifs at notified
      cases notified
      exact ⟨_, rfl, fun q => .inl rfl⟩

theorem LocalMonitor.does_of_step (taken : s.step all program move = some s') :
    s.Does program move s' := by
  cases move with
  | thread p =>
    simp only [step] at taken
    split at taken
    next here =>
      simp only [lock] at taken
      split_ifs at taken with free
      cases taken
      exact .lock (by rw [here]; rfl) (by rw [here]; rfl) free
    next here =>
      simp only [lock] at taken
      split_ifs at taken with free
      cases taken
      exact .lock (by rw [here]; rfl) (by rw [here]; rfl) free
    next here =>
      split_ifs at taken with ready
      · cases taken
        exact .enter here ready
      · cases taken
        exact .block here (Bool.eq_false_of_not_eq_true ready)
    next done locals here =>
      obtain ⟨statement, comes, rest⟩ := Option.bind_eq_some_iff.1 taken
      obtain ⟨⟨state, locals'⟩, does, rest⟩ := Option.bind_eq_some_iff.1 rest
      cases rest
      exact .body here comes does
    next here =>
      cases taken
      exact .leave here
    next => cases taken
  | notify p woken =>
    simp only [step] at taken
    split at taken
    next here =>
      obtain ⟨s₁, notified, rfl⟩ := Option.map_eq_some_iff.1 taken
      obtain ⟨thread, rfl, signals⟩ := notify_signals notified
      exact .notify here signals
    next => cases taken

structure LocalMonitor.Tracks (program : Program n σ ρ) (s : LocalMonitor n σ ρ)
    (a : Sequential n σ) : Prop where
  owner : ∀ p, s.mutex = some p ↔ (s.thread p).locked (program p (s.round p)) = true
  round : ∀ p, a.round p = s.finished p
  inside : ∀ p done locals, s.thread p = .running (.body done locals) →
    done < (program p (s.round p)).body.length ∧ (program p (s.round p)).ready a.state = true ∧
      (program p (s.round p)).runTo done a.state = some (s.state, locals)
  outside : (∀ p done locals, s.thread p ≠ .running (.body done locals)) → s.state = a.state

namespace LocalMonitor

theorem goto_thread (s : LocalMonitor n σ ρ) (p : ProcessId n) (position : Position ρ) :
    (s.goto p position).thread p = .running position :=
  Function.update_self ..

theorem goto_other (s : LocalMonitor n σ ρ) (other : q ≠ p) (position : Position ρ) :
    (s.goto p position).thread q = s.thread q ∧ (s.goto p position).round q = s.round q := by
  refine ⟨Function.update_of_ne other .., ?_⟩
  simp only [goto]
  split_ifs
  · exact Function.update_of_ne other ..
  · rfl

theorem goto_round (s : LocalMonitor n σ ρ) (p : ProcessId n) (position : Position ρ) :
    (s.goto p position).round p = s.round p + position.isLock.toNat := by
  simp only [goto]
  split_ifs with back
  · rw [Function.update_self, back]
    rfl
  · rw [Bool.eq_false_of_not_eq_true back]
    rfl

theorem goto_finished (s : LocalMonitor n σ ρ) (p : ProcessId n) (position : Position ρ) :
    (s.goto p position).finished p = s.round p + (position.isLock || position.past).toNat := by
  rw [finished, goto_thread, goto_round]
  cases position <;> rfl

def Elsewhere (p : ProcessId n) (s s' : LocalMonitor n σ ρ) : Prop :=
  ∀ q, q ≠ p → s'.round q = s.round q ∧
    ∀ position, s'.thread q = .running position ↔ s.thread q = .running position

theorem elsewhere_goto (s : LocalMonitor n σ ρ) (p : ProcessId n) (position : Position ρ) :
    Elsewhere p s (s.goto p position) := fun q other => by
  obtain ⟨thread, round⟩ := s.goto_other other position
  exact ⟨round, fun position => by rw [thread]⟩

theorem elsewhere_update (s : LocalMonitor n σ ρ) (p : ProcessId n) (mutex : Option (ProcessId n))
    (thread : LocalThread ρ) :
    Elsewhere p s { s with mutex, thread := Function.update s.thread p thread } := fun q other =>
  ⟨rfl, fun position => by
    change Function.update s.thread p thread q = _ ↔ _
    rw [Function.update_of_ne other]⟩

theorem Elsewhere.locked (elsewhere : Elsewhere p s s') (other : q ≠ p) :
    (s'.thread q).locked (program q (s'.round q)) = (s.thread q).locked (program q (s.round q)) := by
  obtain ⟨round, same⟩ := elsewhere q other
  rw [round]
  cases here : s.thread q with
  | running position => rw [(same position).2 here]
  | blocked =>
    cases here' : s'.thread q with
    | running position => cases here.symm.trans ((same position).1 here')
    | blocked => rfl

theorem Elsewhere.finished (elsewhere : Elsewhere p s s') (other : q ≠ p) :
    s'.finished q = s.finished q := by
  obtain ⟨round, same⟩ := elsewhere q other
  unfold LocalMonitor.finished
  rw [round]
  cases here : s.thread q with
  | running position => rw [(same position).2 here]
  | blocked =>
    cases here' : s'.thread q with
    | running position => cases here.symm.trans ((same position).1 here')
    | blocked => rfl

namespace Tracks

theorem only (tracks : s.Tracks program a)
    (owns : (s.thread p).locked (program p (s.round p)) = true) {done : ℕ} {locals : ρ}
    (body : s.thread q = .running (.body done locals)) : q = p := by
  have mine := (tracks.owner p).2 owns
  rw [(tracks.owner q).2 (by rw [body]; rfl)] at mine
  exact Option.some.inj mine

theorem quiet (tracks : s.Tracks program a) (elsewhere : Elsewhere p s s')
    (state : s'.state = s.state) (finished : s'.finished p = s.finished p)
    (mutex : ∀ q, q ≠ p → (s'.mutex = some q ↔ s.mutex = some q))
    (own : s'.mutex = some p ↔ (s'.thread p).locked (program p (s'.round p)) = true)
    (before : ∀ done locals, s.thread p ≠ .running (.body done locals))
    (after : ∀ done locals, s'.thread p ≠ .running (.body done locals)) :
    s'.Tracks program a where
  owner q := by
    by_cases mine : q = p
    · subst mine
      exact own
    · rw [mutex q mine, elsewhere.locked mine]
      exact tracks.owner q
  round q := by
    by_cases mine : q = p
    · subst mine
      rw [finished]
      exact tracks.round q
    · rw [elsewhere.finished mine]
      exact tracks.round q
  inside q done locals body := by
    have other : q ≠ p := fun mine => after done locals (mine ▸ body)
    obtain ⟨round, same⟩ := elsewhere q other
    rw [round, state]
    exact tracks.inside q done locals ((same _).1 body)
  outside nobody := by
    rw [state]
    refine tracks.outside fun q done locals body => ?_
    have other : q ≠ p := fun mine => before done locals (mine ▸ body)
    exact nobody q done locals (((elsewhere q other).2 _).2 body)

theorem busy {a' : Sequential n σ} (tracks : s.Tracks program a) (elsewhere : Elsewhere p s s')
    (owns : (s.thread p).locked (program p (s.round p)) = true) (mutex : s'.mutex = s.mutex)
    (own : (s'.thread p).locked (program p (s'.round p)) = true)
    (rounds : ∀ q, q ≠ p → a'.round q = a.round q) (mine : a'.round p = s'.finished p)
    (inside : ∀ done locals, s'.thread p = .running (.body done locals) →
      done < (program p (s'.round p)).body.length ∧
        (program p (s'.round p)).ready a'.state = true ∧
        (program p (s'.round p)).runTo done a'.state = some (s'.state, locals))
    (outside : (∀ done locals, s'.thread p ≠ .running (.body done locals)) →
      s'.state = a'.state) : s'.Tracks program a' where
  owner q := by
    rw [mutex]
    by_cases same : q = p
    · subst same
      exact iff_of_true ((tracks.owner q).2 owns) own
    · rw [elsewhere.locked same]
      exact tracks.owner q
  round q := by
    by_cases same : q = p
    · subst same
      exact mine
    · rw [rounds q same, elsewhere.finished same]
      exact tracks.round q
  inside q done locals body := by
    have same : q = p := by
      by_contra other
      exact other (tracks.only owns (((elsewhere q other).2 _).1 body))
    subst same
    exact inside done locals body
  outside nobody := outside (nobody p)

end Tracks

theorem tracks_initially : (initially initial : LocalMonitor n σ ρ).Tracks program
    ⟨initial, fun _ => 0⟩ where
  owner p := by simp [initially, LocalThread.locked, Position.locked]
  round p := rfl
  inside p done locals body := by cases body
  outside _ := rfl

theorem Tracks.body (tracks : s.Tracks program a) {done : ℕ} {locals locals' : ρ} {state : σ}
    {statement : Statement σ ρ} (here : s.thread p = .running (.body done locals))
    (comes : (program p (s.round p)).body[done]? = some statement)
    (does : statement (s.state, locals) = some (state, locals')) :
    let entry := program p (s.round p)
    let s' := { s with state }.goto p
      (if done + 1 < entry.body.length then .body (done + 1) locals' else entry.afterBody)
    s.returns program (.thread p) = none ∧ s'.Tracks program a ∨
      ∃ a', s.returns program (.thread p) = some (p, locals') ∧ a.step program p = some a' ∧
        a.returns program p = some (p, locals') ∧ s'.Tracks program a' := by
  intro entry s'
  obtain ⟨short, ready, sofar⟩ := tracks.inside p done locals here
  have owns : (s.thread p).locked (program p (s.round p)) = true := by
    rw [here]
    rfl
  have next : entry.runTo (done + 1) a.state = some (state, locals') := by
    rw [entry.runTo_succ comes, sofar]
    exact does
  have elsewhere : Elsewhere p s s' := elsewhere_goto { s with state } p _
  by_cases more : done + 1 < entry.body.length
  · have there : s' = { s with state }.goto p (.body (done + 1) locals') := by
      simp only [s', if_pos more]
    refine .inl ⟨?_, tracks.busy elsewhere owns rfl ?_ (fun _ _ => rfl) ?_ ?_ ?_⟩
    · simp only [returns, here]
      rw [if_neg (Nat.ne_of_lt more)]
    · rw [there, goto_thread]
      rfl
    · rw [there, goto_finished, tracks.round, finished, here]
      rfl
    · intro done' locals'' body
      rw [there, goto_thread] at body
      cases body
      rw [there, goto_round]
      exact ⟨more, ready, next⟩
    · intro nobody
      rw [there, goto_thread] at nobody
      exact absurd rfl (nobody _ _)
  · have last : done + 1 = entry.body.length := Nat.le_antisymm short (Nat.le_of_not_lt more)
    have there : s' = { s with state }.goto p entry.afterBody := by
      simp only [s', if_neg more]
    have current : a.round p = s.round p := by
      rw [tracks.round, finished, here]
      rfl
    have ran : entry.run a.state = some (state, locals') := by
      rw [← entry.runTo_length, ← last]
      exact next
    refine .inr ⟨⟨state, Function.update a.round p (a.round p + 1)⟩, ?_, ?_, ?_, ?_⟩
    · simp only [returns, here]
      rw [if_pos last, comes]
      simp [does]
    · rw [Sequential.step, current, if_pos ready, ran]
      rfl
    · rw [Sequential.returns, current, ran]
      rfl
    · refine tracks.busy elsewhere owns rfl ?_ (fun q other => Function.update_of_ne other ..) ?_ ?_
        fun _ => ?_
      · rw [there, goto_thread, goto_round]
        rcases entry.afterBody_cases with ⟨after, first⟩ | ⟨after, -⟩
        · rw [after]
          exact congrArg (!·) first
        · rw [after]
          rfl
      · rw [there, goto_finished]
        change Function.update a.round p (a.round p + 1) p = s.round p + _
        rw [Function.update_self, current]
        rcases entry.afterBody_cases with ⟨after, -⟩ | ⟨after, -⟩ <;> rw [after] <;> rfl
      · intro done' locals'' body
        rw [there, goto_thread] at body
        rcases entry.afterBody_cases with ⟨after, -⟩ | ⟨after, -⟩ <;> rw [after] at body <;> cases body
      · rw [there]
        rfl

theorem elsewhere_signals {thread : ProcessId n → LocalThread ρ} {condName : CondName}
    (signals : ∀ q, thread q = s.thread q ∨ thread q = (s.thread q).signal condName)
    (p : ProcessId n) (position : Position ρ) :
    Elsewhere p s ({ s with thread }.goto p position) := fun q other => by
  obtain ⟨same, round⟩ := goto_other { s with thread } other position
  refine ⟨round, fun position => ?_⟩
  rw [same]
  change thread q = .running position ↔ _
  rcases signals q with kept | signalled
  · rw [kept]
  · rw [signalled]
    cases s.thread q <;> simp [LocalThread.signal]

theorem returns_none (nobody : ∀ done locals, s.thread p ≠ .running (.body done locals)) :
    s.returns program (.thread p) = none := by
  cases here : s.thread p with
  | running position =>
    cases position with
    | body done locals => exact absurd here (nobody done locals)
    | _ => simp only [returns, here]
  | blocked => simp only [returns, here]

theorem tracks_step (tracks : s.Tracks program a) (does : s.Does program move s') :
    s.returns program move = none ∧ s'.Tracks program a ∨
      ∃ p result a', s.returns program move = some (p, result) ∧ a.step program p = some a' ∧
        a.returns program p = some (p, result) ∧ s'.Tracks program a' := by
  cases does with
  | @lock p outside unfinished free =>
    have nobody : ∀ done locals, s.thread p ≠ .running (.body done locals) := fun done locals body => by
      rw [body] at outside
      cases outside
    refine .inl ⟨?_, tracks.quiet (elsewhere_goto { s with mutex := some p } p .wait) rfl ?_ ?_ ?_
      nobody ?_⟩
    · exact returns_none nobody
    · rw [goto_finished, finished, unfinished]
      rfl
    · intro q other
      refine iff_of_false (fun mine => other (Option.some.inj mine).symm) ?_
      rw [free]
      simp
    · rw [goto_thread]
      exact iff_of_true rfl rfl
    · rw [goto_thread]
      simp
  | @enter p here ready =>
    have owns : (s.thread p).locked (program p (s.round p)) = true := by
      rw [here]
      rfl
    have current : s.state = a.state := tracks.outside fun q done locals body => by
      rw [tracks.only owns body, here] at body
      cases body
    refine .inl ⟨by simp only [returns, here], tracks.busy (elsewhere_goto s p _) owns rfl ?_
      (fun _ _ => rfl) ?_ ?_ ?_⟩
    · rw [goto_thread]
      rfl
    · rw [goto_finished, tracks.round, finished, here]
      rfl
    · intro done locals body
      rw [goto_thread] at body
      cases body
      rw [goto_round]
      refine ⟨List.length_pos_iff.2 (Entry.nonempty _), current ▸ ready, ?_⟩
      change _ = some (s.state, _)
      rw [current]
      rfl
    · intro nobody
      rw [goto_thread] at nobody
      exact absurd rfl (nobody _ _)
  | @block p here =>
    refine .inl ⟨by simp only [returns, here], tracks.quiet (elsewhere_update s p none _) rfl
      ?_ ?_ ?_ ?_ ?_⟩
    · simp only [finished, Function.update_self, here]
      rfl
    · intro q other
      refine iff_of_false (by simp) fun mine => other ?_
      rw [(tracks.owner p).2 (by rw [here]; rfl)] at mine
      exact (Option.some.inj mine).symm
    · simp [LocalThread.locked]
    · rw [here]
      simp
    · simp
  | @body p done locals locals' state statement here comes does =>
    rcases tracks.body here comes does with quiet | ⟨a', returns, stepped, same, tracks'⟩
    · exact .inl quiet
    · exact .inr ⟨p, locals', a', returns, stepped, same, tracks'⟩
  | @leave p here =>
    refine .inl ⟨by simp only [returns, here], tracks.quiet
      (elsewhere_goto { s with mutex := none } p _) rfl ?_ ?_ ?_ ?_ ?_⟩
    · rw [goto_finished, finished, here]
      split_ifs <;> rfl
    · intro q other
      refine iff_of_false (by simp [goto]) fun mine => other ?_
      rw [(tracks.owner p).2 (by rw [here]; rfl)] at mine
      exact (Option.some.inj mine).symm
    · rw [goto_thread, goto_round]
      refine iff_of_false (by simp [goto]) ?_
      split_ifs with first
      · simp [LocalThread.locked, Position.locked, Position.isLock, first]
      · simp [LocalThread.locked, Position.locked]
    · rw [here]
      simp
    · rw [goto_thread]
      split_ifs <;> simp
  | @notify p woken thread here signals =>
    refine .inl ⟨rfl, tracks.quiet (elsewhere_signals signals p _) rfl ?_ (fun _ _ => Iff.rfl) ?_ ?_ ?_⟩
    · rw [goto_finished, finished, here]
      split_ifs <;> rfl
    · rw [goto_thread]
      change s.mutex = some p ↔ _
      rw [tracks.owner p, here]
      split_ifs with first
      · simp [LocalThread.locked, Position.locked, first]
      · simp [LocalThread.locked, Position.locked, first]
    · rw [here]
      simp
    · rw [goto_thread]
      split_ifs <;> simp

theorem local_linearized (run : Run all program initial moves s) :
    ∃ history a, Sequential.Run program initial history a ∧
      recorded (Sequential.returns program) history = recorded (returns program) moves ∧
      s.Tracks program a := by
  induction run with
  | start begins =>
    subst begins
    exact ⟨[], _, .start rfl, rfl, tracks_initially⟩
  | next run may taken ih =>
    obtain ⟨history, a, sequential, same, tracks⟩ := ih
    rcases tracks_step tracks (does_of_step taken) with
      ⟨silent, tracks'⟩ | ⟨p, result, a', shows, stepped, shows', tracks'⟩
    · exact ⟨history, a, sequential, by rw [recorded_none silent, same], tracks'⟩
    · exact ⟨_, a', .next sequential trivial stepped,
        by rw [recorded_some shows', recorded_some shows, same], tracks'⟩

def idle (a : Sequential n σ) : LocalMonitor n σ ρ := ⟨a.state, none, fun _ => .running .lock, a.round⟩

def alone (a : Sequential n σ) (p : ProcessId n) (mutex : Option (ProcessId n))
    (position : Position ρ) : LocalMonitor n σ ρ :=
  ⟨a.state, mutex, Function.update (fun _ => .running .lock) p (.running position), a.round⟩

def Reaches (all : Bool) (program : Program n σ ρ) (initial : σ)
    (returned : List (ProcessId n × ρ)) (s : LocalMonitor n σ ρ) : Prop :=
  ∃ moves, Run all program initial moves s ∧ recorded (returns program) moves = returned

variable {returned : List (ProcessId n × ρ)}

theorem Reaches.silent (reaches : Reaches all program initial returned s)
    (taken : s.step all program move = some s') (nothing : s.returns program move = none) :
    Reaches all program initial returned s' := by
  obtain ⟨moves, run, same⟩ := reaches
  exact ⟨_, .next run trivial taken, by rw [recorded_none nothing, same]⟩

theorem Reaches.returning {result : ProcessId n × ρ} (reaches : Reaches all program initial returned s)
    (taken : s.step all program move = some s') (shows : s.returns program move = some result) :
    Reaches all program initial (result :: returned) s' := by
  obtain ⟨moves, run, same⟩ := reaches
  exact ⟨_, .next run trivial taken, by rw [recorded_some shows, same]⟩

theorem alone_thread (a : Sequential n σ) (p : ProcessId n) (mutex : Option (ProcessId n))
    (position : Position ρ) : (alone a p mutex position).thread p = .running position := by
  simp only [alone, Function.update_self]

theorem alone_goto (a : Sequential n σ) (p : ProcessId n) (mutex : Option (ProcessId n))
    (position : Position ρ) {position' : Position ρ} (inside : position'.isLock = false) :
    (alone a p mutex position).goto p position' = alone a p mutex position' := by
  simp [goto, alone, inside]

theorem alone_back (a : Sequential n σ) (p : ProcessId n) (position : Position ρ) :
    (alone a p none position).goto p .lock =
      idle ⟨a.state, Function.update a.round p (a.round p + 1)⟩ := by
  simp [goto, alone, idle, Position.isLock, Function.update_eq_self]

theorem alone_notify (a : Sequential n σ) (p : ProcessId n) (mutex : Option (ProcessId n))
    (position : Position ρ) (condName : CondName) :
    (alone a p mutex position).notify all condName none = some (alone a p mutex position) := by
  have running : ∀ q, ∃ position', (alone a p mutex position).thread q = .running position' := by
    intro q
    by_cases mine : q = p
    · subst mine
      exact ⟨position, alone_thread ..⟩
    · exact ⟨.lock, by simp only [alone, Function.update_of_ne mine]⟩
  cases all with
  | true =>
    have same : (fun q => ((alone a p mutex position).thread q).signal condName) =
        (alone a p mutex position).thread := by
      funext q
      obtain ⟨position', here⟩ := running q
      rw [here]
      rfl
    simp only [notify, if_true, same]
  | false =>
    have awake : ∀ q, ((alone a p mutex position).thread q).asleep condName = false := by
      intro q
      obtain ⟨position', here⟩ := running q
      rw [here]
      rfl
    simp only [notify, Bool.false_eq_true, if_false]
    exact if_pos awake

theorem alone_notified (all : Bool) (program : Program n σ ρ) (a : Sequential n σ) (p : ProcessId n)
    (mutex : Option (ProcessId n)) :
    (alone a p mutex .notify).step all program (.notify p none) =
      some ((alone a p mutex .notify).goto p
        (if (program p (a.round p)).unlockFirst then .lock else .leave)) := by
  simp only [step, alone_thread]
  rw [alone_notify]
  rfl

theorem alone_left (all : Bool) (program : Program n σ ρ) (a : Sequential n σ) (p : ProcessId n)
    (mutex : Option (ProcessId n)) :
    (alone a p mutex .leave).step all program (.thread p) =
      some ((alone a p none .leave).goto p
        (if (program p (a.round p)).unlockFirst then .notify else .lock)) := by
  simp only [step, alone_thread]
  rfl

theorem alone_silent {mutex : Option (ProcessId n)} (after : position.past = true) :
    (alone a p mutex position).returns program (.thread p) = none := by
  refine returns_none fun done locals body => ?_
  rw [alone_thread] at body
  cases body
  cases after

theorem Reaches.enter (reaches : Reaches all program initial returned (idle a))
    (ready : (program p (a.round p)).ready a.state = true) :
    Reaches all program initial returned
      (alone a p (some p) (.body 0 (program p (a.round p)).arguments)) := by
  have locked : (idle a).step all program (.thread p) = some (alone a p (some p) .wait) := by
    simp [step, idle, lock, goto, alone, Position.isLock]
  have found : (alone a p (some p) .wait).step all program (.thread p) =
      some (alone a p (some p) (.body 0 (program p (a.round p)).arguments)) := by
    simp only [step, alone_thread]
    rw [alone_goto _ _ _ _ rfl]
    exact if_pos ready
  refine (reaches.silent locked (returns_none (by simp [idle]))).silent found (returns_none ?_)
  rw [alone_thread]
  simp

theorem alone_next (all : Bool) {round : ProcessId n → ℕ} {found st : σ} {done : ℕ} {locals : ρ}
    (runs : ((program p (round p)).run found).isSome)
    (sofar : (program p (round p)).runTo done found = some (st, locals))
    (short : done < (program p (round p)).body.length) :
    ∃ st' locals', (program p (round p)).runTo (done + 1) found = some (st', locals') ∧
      (alone ⟨st, round⟩ p (some p) (.body done locals)).step all program (.thread p) =
        some (alone ⟨st', round⟩ p (some p)
          (if done + 1 < (program p (round p)).body.length then .body (done + 1) locals'
            else (program p (round p)).afterBody)) ∧
      (alone ⟨st, round⟩ p (some p) (.body done locals)).returns program (.thread p) =
        if done + 1 = (program p (round p)).body.length then some (p, locals') else none := by
  have comes := List.getElem?_eq_getElem short
  obtain ⟨⟨st', locals'⟩, does⟩ := Option.isSome_iff_exists.1 (Entry.runTo_some runs sofar comes)
  have next := (program p (round p)).runTo_succ comes found
  rw [sofar, Option.bind_some, does] at next
  refine ⟨st', locals', next, ?_, ?_⟩
  · simp only [step, alone_thread]
    change ((program p (round p)).body[done]?.bind fun statement => _) = _
    rw [comes, Option.bind_some]
    change (Option.bind ((program p (round p)).body[done] (st, locals)) fun _ => _) = _
    rw [does, Option.bind_some]
    refine congrArg some (alone_goto ⟨st', round⟩ p (some p) (.body done locals) ?_)
    split_ifs
    · rfl
    · rcases Entry.afterBody_cases (program p (round p)) with ⟨after, -⟩ | ⟨after, -⟩
      · exact congrArg _ after
      · exact congrArg _ after
  · simp only [returns, alone_thread]
    change (if _ then (program p (round p)).body[done]?.bind fun statement => _ else none) = _
    rw [comes, Option.bind_some]
    change (if _ then Option.bind ((program p (round p)).body[done] (st, locals)) fun _ => _
      else none) = _
    rw [does, Option.bind_some]
    rfl

theorem Reaches.body {round : ProcessId n → ℕ} {found state : σ} {result : ρ}
    (ran : (program p (round p)).run found = some (state, result)) (left : ℕ) :
    ∀ done st locals, done + (left + 1) = (program p (round p)).body.length →
      (program p (round p)).runTo done found = some (st, locals) →
      Reaches all program initial returned (alone ⟨st, round⟩ p (some p) (.body done locals)) →
      Reaches all program initial ((p, result) :: returned)
        (alone ⟨state, round⟩ p (some p) (program p (round p)).afterBody) := by
  have runs : ((program p (round p)).run found).isSome := by
    rw [ran]
    rfl
  induction left with
  | zero =>
    intro done st locals last sofar reaches
    obtain ⟨st', locals', next, taken, returns⟩ := alone_next all runs sofar (by omega)
    rw [last, Entry.runTo_length, ran] at next
    cases next
    rw [if_neg (by omega)] at taken
    rw [if_pos last] at returns
    exact reaches.returning taken returns
  | succ left ih =>
    intro done st locals more sofar reaches
    obtain ⟨st', locals', next, taken, returns⟩ := alone_next all runs sofar (by omega)
    rw [if_pos (by omega)] at taken
    rw [if_neg (by omega)] at returns
    exact ih (done + 1) st' locals' (by omega) next (reaches.silent taken returns)

theorem Reaches.whole {a' : Sequential n σ} (reaches : Reaches all program initial returned (idle a))
    (stepped : a.step program p = some a') : ∃ result, a.returns program p = some (p, result) ∧
      Reaches all program initial ((p, result) :: returned) (idle a') := by
  unfold Sequential.step at stepped
  split_ifs at stepped with ready
  obtain ⟨⟨state, result⟩, ran, rfl⟩ := Option.map_eq_some_iff.1 stepped
  have positive := List.length_pos_iff.2 (Entry.nonempty (program p (a.round p)))
  have done := (reaches.enter ready).body ran ((program p (a.round p)).body.length - 1) 0 _ _
    (by omega) rfl
  refine ⟨result, by rw [Sequential.returns, ran]; rfl, ?_⟩
  rcases Entry.afterBody_cases (program p (a.round p)) with ⟨after, first⟩ | ⟨after, first⟩
  · rw [after] at done
    have notified := alone_notified all program ⟨state, a.round⟩ p (some p)
    have left := alone_left all program ⟨state, a.round⟩ p (some p)
    simp only [first, Bool.false_eq_true, if_false] at notified left
    rw [alone_goto _ _ _ _ rfl] at notified
    rw [alone_back] at left
    exact (done.silent notified rfl).silent left (alone_silent rfl)
  · rw [after] at done
    have left := alone_left all program ⟨state, a.round⟩ p (some p)
    have notified := alone_notified all program ⟨state, a.round⟩ p none
    simp only [first, if_true] at notified left
    rw [alone_goto _ _ _ _ rfl] at left
    rw [alone_back] at notified
    exact (done.silent left (alone_silent rfl)).silent notified rfl

theorem local_realizes (all : Bool) {history : Trace (Sequential n σ) (ProcessId n)}
    (sequential : Sequential.Run program initial history a) :
    Reaches all program initial (recorded (Sequential.returns program) history) (idle a) := by
  induction sequential with
  | start begins =>
    subst begins
    exact ⟨[], .start rfl, rfl⟩
  | next sequential may stepped ih =>
    obtain ⟨result, shows, reaches⟩ := ih.whole stepped
    rwa [recorded_some shows]

end LocalMonitor

/-- What the entries of a distributed monitor return to two processes, the same entries can return
to two threads of one process. -/
theorem like_local {setup : Setup 2 σ} {serialization : Serialization σ} {monitor : MonitorName}
    {program : Program 2 σ ρ} {c : Client 2 σ ρ} {moves : Trace (Client 2 σ ρ) (Move 2 σ)}
    (shares : ∀ p, setup.monitors p = [monitor]) (alike : ∀ p, setup.state p monitor.1 = initial)
    (restores : ∀ old state,
      serialization.restoreState monitor old (serialization.saveState monitor state) = state)
    (short : monitor.1.length ≠ 255) (run : Client.Run serialization setup monitor program moves c)
    (all : Bool) : ∃ steps s, LocalMonitor.Run all program initial steps s ∧
      recorded (LocalMonitor.returns program) steps =
        recorded (Client.returns program monitor) moves ∧
      ∀ p, s.finished p = c.finished p := by
  obtain ⟨history, a, sequential, same, tracks⟩ :=
    linearized shares alike restores (orders_two short) run
  obtain ⟨steps, locally, returned⟩ := LocalMonitor.local_realizes all sequential
  exact ⟨steps, _, locally, returned.trans same, tracks.round⟩

theorem like_local_two : ∃ moves c, Client.Run unary (shared 2) board exchange moves c ∧
    ∃ steps s, LocalMonitor.Run true exchange 0 steps s ∧
      recorded (LocalMonitor.returns exchange) steps = [(0, 5), (1, 5)] := by
  obtain ⟨moves, c, run, reached⟩ := exists_execution (Client.step unary board exchange)
    (shared 2).client (fun _ _ _ => True) (Move.handOver 0 1 1 2)
    (fun moves _ => recorded (Client.returns exchange board) moves = [(0, 5), (1, 5)])
    (by decide +kernel)
  obtain ⟨steps, s, locally, same, -⟩ := like_local (by decide) (fun p => rfl)
    (fun old state => List.length_replicate) (by decide) run true
  exact ⟨moves, c, run, steps, s, locally, same.trans (of_decide_eq_true reached)⟩

end DistributedMonitor
