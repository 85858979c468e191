import DistributedMonitor.LocalQueue

/-! The local examples never come to a stop: whoever sleeps is notified by the entry that makes its
predicate true. -/

namespace DistributedMonitor
open Library

variable {n : ℕ} {σ ρ : Type} {all : Bool} {program : Program n σ ρ} {initial : σ}
  {s s' : LocalMonitor n σ ρ} {move : LocalMove n} {a : Sequential n σ}
  {moves : Trace (LocalMonitor n σ ρ) (LocalMove n)} {p q : ProcessId n} {condName : CondName}

/-- Whoever can make a predicate true notifies those who wait for it. -/
def Program.Alerts (program : Program n σ ρ) : Prop :=
  ∀ p q k k', (program q k').notifies = (program p k).waitsOn ∨
    ∀ statement ∈ (program q k').body, ∀ before after, statement before = some after →
      (program p k).ready after.1 = true → (program p k).ready before.1 = true

namespace LocalMonitor

def carriesOn (s : LocalMonitor n σ ρ) : LocalMove n → Bool
  | .thread p => match s.thread p with
      | .blocked _ signalled => signalled
      | .running _ => true
  | .notify _ _ => true

def Owes (program : Program n σ ρ) (s : LocalMonitor n σ ρ) (p : ProcessId n) (condName : CondName) :
    Prop :=
  ∃ position, s.thread p = .running position ∧ position.owes (program p (s.round p)).unlockFirst = true ∧
    (program p (s.round p)).notifies = condName

/-- A thread sleeps only while its predicate is false, or a notification is to come. -/
def Alert (program : Program n σ ρ) (s : LocalMonitor n σ ρ) : Prop :=
  ∀ p condName, s.thread p = .blocked condName false →
    condName = (program p (s.round p)).waitsOn ∧
      ((program p (s.round p)).ready s.state = true → ∃ q, s.Owes program q condName)

theorem Alert.kept (alert : s.Alert program) (elsewhere : Elsewhere p s s')
    (asleep : ∀ q condName, q ≠ p → s'.thread q = .blocked condName false →
      s.thread q = .blocked condName false)
    (own : ∀ condName, s'.thread p = .blocked condName false →
      condName = (program p (s'.round p)).waitsOn ∧
        (program p (s'.round p)).ready s'.state = false)
    (wakes : ∀ q, q ≠ p → (program q (s.round q)).ready s'.state = true →
      (program q (s.round q)).ready s.state = true ∨
        s'.Owes program p (program q (s.round q)).waitsOn)
    (still : ∀ q condName, q ≠ p → s'.thread q = .blocked condName false →
      s.Owes program p condName → s'.Owes program p condName) : s'.Alert program := by
  intro q condName blocked
  by_cases mine : q = p
  · subst mine
    obtain ⟨name, unready⟩ := own condName blocked
    refine ⟨name, fun ready => ?_⟩
    rw [unready] at ready
    cases ready
  · obtain ⟨name, owed⟩ := alert q condName (asleep q condName mine blocked)
    have round := (elsewhere q mine).1
    rw [round]
    refine ⟨name, fun ready => ?_⟩
    rcases wakes q mine ready with before | owes
    · obtain ⟨r, position, here, owes, notifies⟩ := owed before
      by_cases same : r = p
      · subst same
        exact ⟨r, still q condName mine blocked ⟨position, here, owes, notifies⟩⟩
      · obtain ⟨round', running⟩ := elsewhere r same
        refine ⟨r, position, (running position).2 here, ?_⟩
        rw [round']
        exact ⟨owes, notifies⟩
    · exact ⟨p, name ▸ owes⟩

theorem blocked_goto {position : Position ρ} (other : q ≠ p)
    (blocked : (s.goto p position).thread q = .blocked condName false) :
    s.thread q = .blocked condName false := by
  rwa [(s.goto_other other position).1] at blocked

theorem running_goto (s : LocalMonitor n σ ρ) (p : ProcessId n) (position : Position ρ)
    (condName : CondName) : (s.goto p position).thread p ≠ .blocked condName false := by
  rw [goto_thread]
  simp

theorem signal_awake (thread : LocalThread ρ) (condName : CondName) :
    thread.signal condName ≠ .blocked condName false := by
  cases thread with
  | running => simp [LocalThread.signal]
  | blocked name signalled =>
    intro same
    simp only [LocalThread.signal, LocalThread.blocked.injEq] at same
    obtain ⟨rfl, unsignalled⟩ := same
    simp at unsignalled

theorem others_agree {p q r : ProcessId 2} : q ≠ r → p ≠ r → q = p := by
  revert p q r
  decide

theorem notify_awake (enough : all = true ∨ n = 2) {position : Position ρ}
    {woken : Option (ProcessId n)} (here : s.thread p = .running position)
    (notified : s.notify all condName woken = some s') (q : ProcessId n) :
    s'.thread q ≠ .blocked condName false := by
  unfold notify at notified
  cases all with
  | true =>
    cases notified
    exact signal_awake _ _
  | false =>
    obtain rfl := enough.resolve_left Bool.false_ne_true
    simp only [Bool.false_eq_true, if_false] at notified
    cases woken with
    | some picked =>
      simp only at notified
      split_ifs at notified with asleep
      cases notified
      by_cases same : q = picked
      · subst same
        change Function.update s.thread q _ q ≠ _
        rw [Function.update_self]
        exact signal_awake _ _
      · have apart : p ≠ picked := fun same => by
          rw [← same, here] at asleep
          cases asleep
        have own := others_agree same apart
        subst own
        change Function.update s.thread picked _ q ≠ _
        rw [Function.update_of_ne same, here]
        simp
    | none =>
      simp only at notified
      split_ifs at notified with nobody
      cases notified
      intro blocked
      have asleep := nobody q
      rw [blocked] at asleep
      simp [LocalThread.asleep] at asleep

theorem signal_blocked {thread : LocalThread ρ} {name : CondName}
    (blocked : thread.signal condName = .blocked name false) : thread = .blocked name false := by
  cases thread with
  | running => cases blocked
  | blocked other signalled =>
    simp only [LocalThread.signal, LocalThread.blocked.injEq, Bool.or_eq_false_iff] at blocked
    rw [blocked.1, blocked.2.1]

theorem alert_step (alerts : program.Alerts) (enough : all = true ∨ n = 2)
    (alert : s.Alert program) (taken : s.step all program move = some s') : s'.Alert program := by
  cases move with
  | notify p woken =>
    simp only [step] at taken
    split at taken
    next here =>
      obtain ⟨s₁, notified, rfl⟩ := Option.map_eq_some_iff.1 taken
      have awake := notify_awake enough here notified
      obtain ⟨thread, rfl, signals⟩ := notify_signals notified
      refine alert.kept (elsewhere_signals signals p _) ?_
        (fun condName blocked => absurd blocked (running_goto _ _ _ _)) (fun q other ready => .inl ready) ?_
      · intro q condName other blocked
        have blocked' : thread q = .blocked condName false := blocked_goto other blocked
        rcases signals q with same | signalled
        · rwa [same] at blocked'
        · rw [signalled] at blocked'
          exact signal_blocked blocked'
      · rintro q condName other blocked ⟨position, -, -, rfl⟩
        exact absurd (blocked_goto other blocked) (awake q)
    next => cases taken
  | thread p =>
    cases does_of_step taken with
    | lock outside unfinished free =>
      refine alert.kept (elsewhere_goto { s with mutex := some p } p _)
        (fun q condName other blocked => blocked_goto other blocked)
        (fun condName blocked => absurd blocked (running_goto _ _ _ _)) (fun q other ready => .inl ready) ?_
      rintro q condName other blocked ⟨position, here, owes, -⟩
      rw [here] at outside unfinished
      cases position with
      | lock => cases owes
      | wait | body => cases outside
      | notify | leave => cases unfinished
    | enter here ready =>
      refine alert.kept (elsewhere_goto s p _)
        (fun q condName other blocked => blocked_goto other blocked)
        (fun condName blocked => absurd blocked (running_goto _ _ _ _)) (fun q other ready => .inl ready) ?_
      rintro q condName other blocked ⟨position, here', owes, -⟩
      cases here.symm.trans here'
      cases owes
    | block here unready =>
      refine alert.kept (elsewhere_update s p none _) ?_ ?_ (fun q other ready => .inl ready) ?_
      · intro q condName other blocked
        change Function.update s.thread p _ q = _ at blocked
        rwa [Function.update_of_ne other] at blocked
      · intro condName blocked
        change Function.update s.thread p _ p = _ at blocked
        rw [Function.update_self] at blocked
        cases blocked
        exact ⟨rfl, unready⟩
      · rintro q condName other blocked ⟨position, here', owes, -⟩
        cases here.symm.trans here'
        cases owes
    | @body _ done locals locals' state statement here comes does =>
      have owing : ∀ condName, (program p (s.round p)).notifies = condName →
          ({ s with state }.goto p (if done + 1 < (program p (s.round p)).body.length then
            .body (done + 1) locals' else (program p (s.round p)).afterBody)).Owes program p
              condName := by
        intro condName notifies
        by_cases more : done + 1 < (program p (s.round p)).body.length
        · rw [if_pos more]
          refine ⟨_, goto_thread .., decide_eq_true (Nat.succ_pos done), ?_⟩
          rw [goto_round]
          exact notifies
        · rw [if_neg more]
          refine ⟨_, goto_thread .., ?_⟩
          rw [goto_round]
          rcases Entry.afterBody_cases (program p (s.round p)) with ⟨after, first⟩ | ⟨after, first⟩
          · rw [after]
            exact ⟨rfl, notifies⟩
          · rw [after]
            exact ⟨first, notifies⟩
      refine alert.kept (elsewhere_goto { s with state } p _)
        (fun q condName other blocked => blocked_goto other blocked)
        (fun condName blocked => absurd blocked (running_goto _ _ _ _)) ?_ ?_
      · intro q other ready
        rcases alerts q p (s.round q) (s.round p) with notifies | harmless
        · exact .inr (owing _ notifies)
        · exact .inl (harmless statement (List.mem_of_getElem? comes) _ _ does ready)
      · rintro q condName other blocked ⟨position, -, -, notifies⟩
        exact owing condName notifies
    | leave here =>
      refine alert.kept (elsewhere_goto { s with mutex := none } p _)
        (fun q condName other blocked => blocked_goto other blocked)
        (fun condName blocked => absurd blocked (running_goto _ _ _ _)) (fun q other ready => .inl ready) ?_
      rintro q condName other blocked ⟨position, here', owes, notifies⟩
      cases here.symm.trans here'
      have first : (program p (s.round p)).unlockFirst = true := owes
      refine ⟨.notify, ?_, rfl, ?_⟩
      · rw [goto_thread, if_pos first]
      · rw [goto_round, if_pos first]
        exact notifies

theorem alert_run (alerts : program.Alerts) (enough : all = true ∨ n = 2)
    (run : Run all program initial moves s) : s.Alert program := by
  apply run.invariant (I := fun s => s.Alert program)
  · rintro _ rfl p condName blocked
    cases blocked
  · exact fun _ s move s' _ alert _ taken => alert_step alerts enough alert taken

theorem notify_possible (all : Bool) (condName : CondName) (s : LocalMonitor n σ ρ) :
    ∃ woken, (s.notify all condName woken).isSome := by
  unfold notify
  cases all with
  | true => exact ⟨none, rfl⟩
  | false =>
    by_cases nobody : ∀ q, (s.thread q).asleep condName = false
    · exact ⟨none, by simp [nobody]⟩
    · obtain ⟨q, asleep⟩ := not_forall.1 nobody
      exact ⟨some q, by simp [asleep]⟩

theorem running_moves {position : Position ρ} (here : s.thread p = .running position)
    (free : position.locked (program p (s.round p)) = false → s.mutex = none)
    (defined : ∀ done locals, position = .body done locals →
      (s.step all program (.thread p)).isSome) :
    ∃ move, s.carriesOn move = true ∧ (s.step all program move).isSome := by
  cases position with
  | lock =>
    refine ⟨.thread p, by simp [carriesOn, here], ?_⟩
    simp [step, here, lock, free rfl]
  | wait =>
    refine ⟨.thread p, by simp [carriesOn, here], ?_⟩
    simp only [step, here]
    split_ifs <;> rfl
  | body done locals => exact ⟨.thread p, by simp [carriesOn, here], defined done locals rfl⟩
  | leave => exact ⟨.thread p, by simp [carriesOn, here], by simp [step, here]⟩
  | notify =>
    obtain ⟨woken, possible⟩ := s.notify_possible all (program p (s.round p)).notifies
    refine ⟨.notify p woken, rfl, ?_⟩
    simpa [step, here] using possible

/-- Where some entry can be gone through whenever none is under way, the threads never all stop. -/
theorem never_stops (tracks : s.Tracks program a) (alert : s.Alert program)
    (defined : ∀ p done locals, s.thread p = .running (.body done locals) →
      (s.step all program (.thread p)).isSome)
    (goes : ∃ p, (program p (s.round p)).ready a.state = true) :
    ∃ move, s.carriesOn move = true ∧ (s.step all program move).isSome := by
  cases mutex : s.mutex with
  | some p =>
    have owns := (tracks.owner p).1 mutex
    cases here : s.thread p with
    | running position =>
      rw [here] at owns
      refine running_moves here (fun unlocked => ?_) fun done locals body => defined p done locals ?_
      · rw [LocalThread.locked, unlocked] at owns
        cases owns
      · rw [here, body]
    | blocked =>
      rw [here] at owns
      cases owns
  | none =>
    by_contra stuck
    have asleep : ∀ p, ∃ condName, s.thread p = .blocked condName false := by
      intro p
      cases here : s.thread p with
      | running position =>
        exact absurd (running_moves here (fun _ => mutex) fun done locals body =>
          defined p done locals (by rw [here, body])) stuck
      | blocked condName signalled =>
        cases signalled with
        | false => exact ⟨condName, rfl⟩
        | true =>
          refine absurd ⟨.thread p, by simp [carriesOn, here], ?_⟩ stuck
          simp [step, here, lock, mutex]
    have current : s.state = a.state := tracks.outside fun p done locals body => by
      obtain ⟨condName, blocked⟩ := asleep p
      cases body.symm.trans blocked
    obtain ⟨p, ready⟩ := goes
    obtain ⟨condName, blocked⟩ := asleep p
    obtain ⟨q, position, here, -⟩ := (alert p condName blocked).2 (current ▸ ready)
    obtain ⟨condName', blocked'⟩ := asleep q
    cases here.symm.trans blocked'

end LocalMonitor

theorem LocalQueue.alerts [Inhabited ρ] (full empty : CondName) (maxSize : ℕ) (requests : ℕ → ρ) :
    ((LocalQueue.buffering ρ full empty maxSize).program requests : Program n (List ρ) ρ).Alerts := by
  intro p q k k'
  unfold Buffering.program
  by_cases producer : p.val % 2 = 0 <;> by_cases producer' : q.val % 2 = 0
  · simp only [producer, producer', if_true]
    refine .inr fun statement listed before after does ready => ?_
    -- a queue with room behind a `push` has had room before
    obtain rfl := List.mem_singleton.1 listed
    obtain ⟨queue, request⟩ := before
    cases does
    have room := ((LocalQueue.ready_iff full empty maxSize _ _).1 ready)
    rw [List.length_append] at room
    exact (LocalQueue.ready_iff full empty maxSize _ _).2 (Nat.lt_of_succ_lt room)
  · simp only [producer, producer', if_true, if_false]
    exact .inl rfl
  · simp only [producer, producer', if_true, if_false]
    exact .inl rfl
  · simp only [producer, producer', if_false]
    refine .inr fun statement listed before after does ready => ?_
    -- neither `front` nor `pop` fills an empty queue
    obtain ⟨queue, result⟩ := before
    cases queue with
    | nil =>
      rcases List.mem_cons.1 listed with rfl | listed
      · cases does
      · obtain rfl := List.mem_singleton.1 listed
        cases does
    | cons first rest => rfl

/-- The local examples never come to a stop, with `notify_one` for two threads and `notify_all`
for any number. -/
theorem local_never_stuck [Inhabited ρ] (full empty : CondName) {maxSize : ℕ} (room : 0 < maxSize)
    (requests : ℕ → ρ) (enough : all = true ∨ n = 2) (both : 2 ≤ n)
    {moves : Trace (LocalMonitor n (List ρ) ρ) (LocalMove n)} {s : LocalMonitor n (List ρ) ρ}
    (run : LocalMonitor.Run all ((LocalQueue.buffering ρ full empty maxSize).program requests) []
      moves s) : ∃ move s', s.carriesOn move = true ∧
      s.step all ((LocalQueue.buffering ρ full empty maxSize).program requests) move = some s' := by
  have nothing : (LocalQueue.buffering ρ full empty maxSize).Holds [] [] := ⟨rfl, Nat.zero_le _⟩
  obtain ⟨history, a, sequential, -, tracks⟩ := LocalMonitor.local_linearized run
  obtain ⟨values, holds, -⟩ := Buffering.conserves nothing sequential
  have alert := LocalMonitor.alert_run (LocalQueue.alerts full empty maxSize requests) enough run
  obtain ⟨move, carriesOn, possible⟩ := LocalMonitor.never_stops tracks alert
    (fun p done locals here => Buffering.defined_locally tracks holds here) (by
      by_cases fits : values.length < maxSize
      · refine ⟨⟨0, by omega⟩, ?_⟩
        exact ((LocalQueue.buffering ρ full empty maxSize).hasRoom _ holds).2 fits
      · refine ⟨⟨1, by omega⟩, ?_⟩
        refine ((LocalQueue.buffering ρ full empty maxSize).hasValue holds).2 ?_
        rintro rfl
        exact fits room)
  obtain ⟨s', taken⟩ := Option.isSome_iff_exists.1 possible
  exact ⟨move, s', carriesOn, taken⟩

theorem local_never_stuck_two : ∃ moves, ∃ s : LocalMonitor 2 (List UInt8) UInt8,
    LocalMonitor.Run false ((LocalQueue.buffering UInt8 [102] [101] 5).program UInt8.ofNat) []
      moves s ∧ (s.thread 1).asleep [101] = true ∧
    ∃ move s', s.carriesOn move = true ∧ s.step false
      ((LocalQueue.buffering UInt8 [102] [101] 5).program UInt8.ofNat) move = some s' := by
  obtain ⟨moves, s, run, reached⟩ := exists_execution
    (LocalMonitor.step false ((LocalQueue.buffering UInt8 [102] [101] 5).program UInt8.ofNat))
    (LocalMonitor.initially ([] : List UInt8)) (fun _ _ _ => True)
    [.thread (1 : ProcessId 2), .thread 1]
    (fun _ s => (s.thread 1).asleep [101]) (by decide +kernel)
  exact ⟨moves, s, run, reached, local_never_stuck [102] [101] (by decide) UInt8.ofNat (.inr rfl)
    le_rfl run⟩

end DistributedMonitor
