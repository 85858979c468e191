import Mathlib.Algebra.Order.BigOperators.Group.Finset
import DistributedMonitor.Discipline
import DistributedMonitor.LockInversion
import DistributedMonitor.Library.Inevitability

/-! The locks of a process keep neither of its threads waiting for ever. Whatever step a process
could take without them, its threads come to take it, or the dispatch that it waits for, as long
as no call wakes up without an answer. -/

namespace DistributedMonitor
open Library

variable {n : ℕ} {σ : Type} {serialization : Serialization σ} {setup : Setup n σ}
  {contract : Permission (System n σ) (Event n σ)} {trace : Trace (System n σ) (Event n σ)}
  {s s' : System n σ} {self p : ProcessId n}
  {process process' : Process n σ} {action : Action n σ} {consumed : Option (Packet n)}
  {sent : List (Envelope n)} {packet : Packet n} {monitors : List MonitorName}
  {l l' : LockedSystem n σ} {locks locks' : Locks} {locking : LockedAction n σ}
  {steps : Trace (LockedSystem n σ) (LockedEvent n σ)}

structure Locks.Kept (process : Process n σ) (locks : Locks) : Prop where
  free : locks.receiving = .outside → locks.subscriptionMutex = none
  mine : locks.answersMutex = some .main → locks.main.locked = true
  theirs : locks.answersMutex = some .receiving → locks.receiving = .answering
  packet : locks.receiving = .dispatching → ∃ packet, process.receiving = .received packet
  waits : locks.main = .evaluating → process.main.answers.isSome
  confirming : locks.main = .unsubscribingConfirmations → process.main.isConfirming = true

theorem dispatched_waits (does : Dispatched self packet monitors process process' sent) :
    process'.main.answers.isSome = process.main.answers.isSome ∧
      process'.main.isConfirming = process.main.isConfirming := by
  cases does with
  | early type main | counted type main =>
    rw [main]
    exact ⟨rfl, rfl⟩
  | notified => exact ⟨read_signal (fun main => main.answers.isSome) (fun _ _ _ => rfl) ..,
      read_signal MainThread.isConfirming (fun _ _ _ => rfl) ..⟩
  | confirmed => exact ⟨read_confirm (fun main => main.answers.isSome) (fun _ _ _ _ => rfl)
      (fun _ _ _ _ => rfl) .., read_confirm MainThread.isConfirming (fun _ _ _ _ => rfl)
      (fun _ _ _ _ => rfl) ..⟩
  | agreed | deferred | waiting | ended | synced => exact ⟨rfl, rfl⟩

theorem answers_of_confirming {main : MainThread n σ} (confirming : main.isConfirming = true) :
    main.answers.isSome = true := by
  cases main with
  | confirming => rfl
  | _ => cases confirming

namespace Locks.Kept

theorem start : Locks.free.Kept process := by
  constructor <;> simp [Locks.free]

theorem mainStep (kept : locks.Kept process)
    (does : MainStep serialization self process action process' sent)
    (allowed : locks.act process action = some locks') : locks'.Kept process' := by
  have receiving := mainStep_receiving does
  rcases act_cases (mainStep_not_dispatch does) allowed with
    ⟨rfl, notAcquired, notReturned⟩ | ⟨-, rfl⟩
  · have idle : process.main.answers.isSome = false := by
      refine Bool.eq_false_of_not_eq_true fun some' => ?_
      obtain ⟨received, waits⟩ := Option.isSome_iff_exists.1 some'
      exact (mainStep_answers does waits).elim notAcquired notReturned
    exact { kept with
      packet := fun here => by
        rw [receiving]
        exact kept.packet here
      waits := fun here => by
        rw [kept.waits here] at idle
        cases idle
      confirming := fun here => by
        rw [answers_of_confirming (kept.confirming here)] at idle
        cases idle }
  · exact {
      free := kept.free
      mine := by simp
      theirs := by simp
      packet := fun here => by
        rw [receiving]
        exact kept.packet here
      waits := by simp
      confirming := by simp }

theorem dispatch (kept : locks.Kept process)
    (does : Dispatched self packet monitors process process' sent)
    (allowed : locks.act process .dispatch = some locks') : locks'.Kept process' := by
  obtain ⟨waits, confirming⟩ := dispatched_waits does
  simp only [Locks.act] at allowed
  split at allowed
  next dispatching =>
    split_ifs at allowed
    cases allowed
    exact {
      free := by simp
      mine := kept.mine
      theirs := fun theirs => by
        rw [kept.theirs theirs] at dispatching
        cases dispatching
      packet := by simp
      waits := fun here => waits.trans (kept.waits here)
      confirming := fun here => confirming.trans (kept.confirming here) }
  next answering =>
    cases allowed
    exact {
      free := by simp
      mine := by simp
      theirs := by simp
      packet := by simp
      waits := fun here => waits.trans (kept.waits here)
      confirming := fun here => confirming.trans (kept.confirming here) }
  next => cases allowed

theorem between (kept : locks.Kept process) (notDispatch : action ≠ .dispatch)
    (allowed : locks.act process action = some locks') (outside : locks.receiving = .outside)
    (same : process'.main = process.main) : locks'.Kept process' := by
  rcases act_cases notDispatch allowed with ⟨rfl, -, -⟩ | ⟨-, rfl⟩
  · exact { kept with
      packet := by simp [outside]
      waits := same ▸ kept.waits
      confirming := same ▸ kept.confirming }
  · exact {
      free := kept.free
      mine := by simp
      theirs := by simp
      packet := by simp [outside]
      waits := by simp
      confirming := by simp }

theorem locked (kept : locks.Kept process) (here : locking.ofSystem = none)
    (allowed : locks.after process locking = some locks') : locks'.Kept process := by
  cases locking with
  | act => cases here
  | lockSubscriptions =>
    simp only [Locks.after] at allowed
    split at allowed
    next packet received =>
      split_ifs at allowed with free
      cases allowed
      exact { kept with
        free := by simp
        theirs := fun theirs => by
          rw [kept.theirs theirs] at free
          cases free.1
        packet := fun _ => ⟨packet, received⟩ }
    next => cases allowed
  | callBack =>
    simp only [Locks.after] at allowed
    split_ifs at allowed with free
    cases allowed
    exact { kept with
      free := by simp
      theirs := fun theirs => by
        rw [kept.theirs theirs] at free
        cases free.1
      packet := by simp }
  | lockCallback =>
    simp only [Locks.after] at allowed
    split_ifs at allowed with free
    cases allowed
    exact { kept with
      free := by simp
      mine := by simp
      theirs := by simp
      packet := by simp }
  | unlockSubscriptions =>
    simp only [Locks.after] at allowed
    split_ifs at allowed with free
    cases allowed
    exact { kept with
      free := fun _ => rfl
      theirs := fun theirs => by
        rw [kept.theirs theirs] at free
        cases free
      packet := by simp }
  | lockAnswers =>
    simp only [Locks.after] at allowed
    split_ifs at allowed with free
    cases allowed
    exact { kept with
      mine := fun _ => rfl
      theirs := by simp
      waits := fun _ => free.2.1
      confirming := by simp }
  | block =>
    simp only [Locks.after] at allowed
    split_ifs at allowed with free
    cases allowed
    exact { kept with
      mine := by simp
      theirs := by simp
      waits := by simp
      confirming := by simp }
  | unsubscribe =>
    simp only [Locks.after] at allowed
    split_ifs at allowed with free
    cases allowed
    exact { kept with
      mine := fun _ => rfl
      waits := by simp
      confirming := by simp }
  | unsubscribeNext =>
    simp only [Locks.after] at allowed
    split_ifs at allowed with free
    cases allowed
    exact { kept with
      mine := fun _ => rfl
      waits := by simp
      confirming := fun _ => free.2.1 }

theorem step (kept : (l.locks self).Kept (l.system.process self))
    (wf : l.system.WellFormed setup)
    (allowed : (l.locks self).act (l.system.process self) action = some locks)
    (taken : step .simple serialization l.system (self, action) = some s) :
    locks.Kept (s.process self) := by
  cases systemStep wf taken with
  | receive =>
    simp only [Function.update_self]
    exact kept.between (by simp) allowed (receives_outside (.inl ⟨_, rfl⟩) allowed) rfl
  | updateTimestamp =>
    rw [System.update_own]
    exact kept.between (by simp) allowed (receives_outside (.inr rfl) allowed) rfl
  | acts does =>
    rw [System.update_own]
    cases does with
    | main does => exact kept.mainStep does allowed
    | dispatch received free dispatches does => exact kept.dispatch does allowed

end Locks.Kept

theorem locks_kept (run : LockedRun serialization setup contract steps l) (p : ProcessId n) :
    (l.locks p).Kept (l.system.process p) :=
  locks_run (fun _ => .start) (fun wf kept allowed taken => kept.step wf allowed taken)
    (fun kept here allowed => kept.locked here allowed) run p

/-- The receiving thread throws: nobody takes its packet, or its notification comes when everybody
has confirmed the end of the wait, and the callback is gone. -/
def Process.throws (serialization : Serialization σ) (self : ProcessId n) (process : Process n σ) :
    Bool :=
  (match process.receiving with
    | .received packet => (process.dispatch serialization self packet).toOption.isNone
    | _ => false) ||
  process.unheard && process.main.isConfirming && process.main.answers.any answersComplete

/-- What a thread does about the locks, but for the waking up of a call that has blocked and is
still short of answers. -/
def LockedAction.advances (process : Process n σ) (locks : Locks) : LockedAction n σ → Bool
  | .act _ => false
  | .lockAnswers => locks.main ≠ .blocked ∨ process.main.answers.any answersComplete
  | _ => true

theorem ofSystem_of_advances (advances : locking.advances process locks = true) :
    locking.ofSystem = none := by
  cases locking with
  | act => cases advances
  | _ => rfl

def Locks.Advance (process : Process n σ) (locks : Locks) : Prop :=
  ∃ locking : LockedAction n σ, locking.advances process locks = true ∧
    (locks.after process locking).isSome = true

section
variable (kept : locks.Kept process) (held : locks.Held process)
  (silent : process.main.answers.any answersComplete = true → process.callsBackNow = false)
include kept held silent

theorem receiving_advances (heard : process.throws serialization self = false)
    (inside : locks.receiving ≠ .outside) : locks.Advance process ∨
      (∃ packet, process.receiving = .received packet) ∧ (locks.act process .dispatch).isSome := by
  cases stage : locks.receiving with
  | outside => exact absurd stage inside
  | dispatching =>
    by_cases calls : process.callsBackNow = true
    · exact .inl ⟨.callBack, rfl, by simp [Locks.after, stage, calls]⟩
    · have reaches : ¬(locks.main = .unsubscribingConfirmations ∧ process.unheard = true) :=
        fun late => by
          simp [Process.throws, late.2, kept.confirming late.1, held.complete (.inr late.1)] at heard
      exact .inr ⟨kept.packet stage, by simp [Locks.act, stage, calls, reaches]⟩
  | callingBack =>
    have calls := held.calling (.inl stage)
    have incomplete : process.main.answers.any answersComplete = false :=
      Bool.eq_false_of_not_eq_true fun complete => by
        rw [silent complete] at calls
        cases calls
    cases taken : locks.answersMutex with
    | none => exact .inl ⟨.lockCallback, rfl, by simp [Locks.after, stage, taken]⟩
    | some thread =>
      cases thread with
      | receiving =>
        rw [kept.theirs taken] at stage
        cases stage
      | main =>
        -- the main thread has the lock and blocks, since this answer is still to come
        cases main : locks.main with
        | outside | blocked =>
          have mine := kept.mine taken
          rw [main] at mine
          cases mine
        | evaluating => exact .inl ⟨.block, rfl, by simp [Locks.after, main, incomplete]⟩
        | unsubscribing =>
          rw [held.complete (.inl main)] at incomplete
          cases incomplete
        | unsubscribingConfirmations =>
          rw [held.complete (.inr main)] at incomplete
          cases incomplete
  | answering =>
    obtain ⟨packet, received, -⟩ := callsBackNow_iff.1 (held.calling (.inr stage))
    exact .inr ⟨⟨packet, received⟩, by simp [Locks.act, stage]⟩
  | returning => exact .inl ⟨.unlockSubscriptions, rfl, by simp [Locks.after, stage]⟩

theorem call_advances (heard : process.throws serialization self = false)
    (complete : process.main.answers.any answersComplete = true)
    (ends : action = .acquired ∧ process.main.isConfirming = false ∨
      action = .waitReturns ∧ process.main.isConfirming = true) :
    locks.Advance process ∨ (locks.act process action).isSome ∨
      (∃ packet, process.receiving = .received packet) ∧ (locks.act process .dispatch).isSome := by
  by_cases inside : locks.receiving = .outside
  · have free := kept.free inside
    have untaken : locks.main.locked = false → locks.answersMutex = none := by
      intro unlocked
      cases taken : locks.answersMutex with
      | none => rfl
      | some thread =>
        cases thread with
        | main =>
          rw [kept.mine taken] at unlocked
          cases unlocked
        | receiving =>
          rw [kept.theirs taken] at inside
          cases inside
    cases main : locks.main with
    | outside | blocked =>
      have unlocked : locks.main.locked = false := by
        rw [main]
        rfl
      have waits : process.main.answers.isSome = true := by
        obtain ⟨received, waits, -⟩ := (Option.any_eq_true ..).mp complete
        rw [waits]
        rfl
      exact .inl ⟨.lockAnswers, decide_eq_true (.inr complete),
        by simp [Locks.after, unlocked, untaken unlocked, waits]⟩
    | evaluating => exact .inl ⟨.unsubscribe, rfl, by simp [Locks.after, main, complete]⟩
    | unsubscribing =>
      rcases ends with ⟨rfl, -⟩ | ⟨rfl, confirming⟩
      · exact .inr (.inl (by simp [Locks.act, main, free]))
      · exact .inl ⟨.unsubscribeNext, rfl, by simp [Locks.after, main, confirming, free]⟩
    | unsubscribingConfirmations =>
      rcases ends with ⟨rfl, collecting⟩ | ⟨rfl, -⟩
      · rw [kept.confirming main] at collecting
        cases collecting
      · exact .inr (.inl (by simp [Locks.act, main, free]))
  · exact (receiving_advances kept held silent heard inside).imp_right .inr

end

theorem unreleasing (does : MainStep serialization self process action process' sent)
    (waits : locks.act process action = none) (packet : Packet n) :
    process.mustWait packet = false := by
  cases does with
  | lock main | wait main | wake main | subscribeConfirmations main | acquired main
  | waitReturns main =>
    unfold Process.mustWait
    rw [main]
  | configured called =>
    cases action <;> cases called <;> cases waits
  | notify called => rcases called with rfl | rfl <;> cases waits
  | _ => cases waits

theorem waits_subscriptions (does : MainStep serialization self process action process' sent)
    (waits : locks.act process action = none) :
    (action = .acquired ∧ process.main.isConfirming = false ∨
        action = .waitReturns ∧ process.main.isConfirming = true) ∧
      process.main.answers.any answersComplete = true ∨
    locks.subscriptionMutex ≠ none := by
  cases does with
  | acquired main complete =>
    refine .inl ⟨.inl ⟨rfl, ?_⟩, ?_⟩
    · rw [main]
      rfl
    · rw [main]
      exact decide_eq_true complete
  | waitReturns main complete =>
    refine .inl ⟨.inr ⟨rfl, ?_⟩, ?_⟩
    · rw [main]
      rfl
    · rw [main]
      exact decide_eq_true complete
  | lock | wait | wake | subscribeConfirmations =>
    refine .inr fun free => ?_
    rw [Locks.act, if_pos free] at waits
    cases waits
  | configured called =>
    cases action <;> cases called <;> cases waits
  | notify called => rcases called with rfl | rfl <;> cases waits
  | _ => cases waits

theorem lock_taken (here : locking.ofSystem = none)
    (allowed : ((l.locks p).after (l.system.process p) locking).isSome = true) :
    ∃ l', lockedStep serialization l (p, locking) = some l' := by
  obtain ⟨locks, after⟩ := Option.isSome_iff_exists.1 allowed
  refine ⟨⟨l.system, Function.update l.locks p locks⟩, ?_⟩
  simp [lockedStep, LockedSystem.moved, here, after]

theorem act_taken (allowed : ((l.locks p).act (l.system.process p) action).isSome = true)
    (possible : (step .simple serialization l.system (p, action)).isSome = true) :
    (lockedStep serialization l (p, .act action)).isSome = true := by
  obtain ⟨locks, after⟩ := Option.isSome_iff_exists.1 allowed
  obtain ⟨s, taken⟩ := Option.isSome_iff_exists.1 possible
  simp [lockedStep, LockedSystem.moved, LockedAction.ofSystem, Locks.after, after, taken]

theorem dispatch_taken (heard : (l.system.process p).throws serialization p = false)
    (received : (l.system.process p).receiving = .received packet)
    (free : (l.system.process p).mustWait packet = false)
    (allowed : ((l.locks p).act (l.system.process p) .dispatch).isSome = true) :
    (lockedStep serialization l (p, .act .dispatch)).isSome = true := by
  refine act_taken allowed ?_
  have dispatches : ((l.system.process p).dispatch serialization p packet).toOption.isSome := by
    by_contra throws
    simp [Process.throws, received, throws] at heard
  simpa [step, Process.act, Process.dispatchReceived, received, free]
    using dispatches

/-- While the locks keep a process from its next step, one of its threads goes on about them or
the receiving thread can dispatch. -/
theorem thread_advances (run : LockedRun serialization setup contract steps l)
    (heard : (l.system.process p).throws serialization p = false)
    (possible : (step .simple serialization l.system (p, action)).isSome = true) :
    (l.locks p).Advance (l.system.process p) ∨
      (lockedStep serialization l (p, .act action)).isSome = true ∨
        (lockedStep serialization l (p, .act .dispatch)).isSome = true := by
  have kept := locks_kept run p
  have held := held_run run p
  have silent := silent_complete (run_of_locked run) (p := p)
  have inside (free : ∀ packet, (l.system.process p).receiving = .received packet →
      (l.system.process p).mustWait packet = false) (round : (l.locks p).receiving ≠ .outside) :
      (l.locks p).Advance (l.system.process p) ∨
        (lockedStep serialization l (p, .act .dispatch)).isSome = true := by
    rcases receiving_advances kept held silent heard round with
      advance | ⟨⟨packet, received⟩, allowed⟩
    · exact .inl advance
    · exact .inr (dispatch_taken heard received (free packet received) allowed)
  obtain ⟨s, taken⟩ := Option.isSome_iff_exists.1 possible
  cases systemStep (wellFormed_run (run_of_locked run)) taken with
  | receive listening | updateTimestamp listening =>
    by_cases round : (l.locks p).receiving = .outside
    · exact .inr (.inl (act_taken (by simp [Locks.act, round]) possible))
    · refine (inside (fun packet received => ?_) round).imp_right .inr
      rw [listening] at received
      cases received
  | acts does =>
    cases does with
    | dispatch received free =>
      by_cases round : (l.locks p).receiving = .outside
      · exact .inl ⟨.lockSubscriptions, rfl,
          by simp [Locks.after, received, round, kept.free round]⟩
      · refine (inside (fun packet received' => ?_) round).imp_right .inr
        cases received.symm.trans received'
        exact free
    | main does =>
      cases allowed : (l.locks p).act (l.system.process p) action with
      | some locks => exact .inr (.inl (act_taken (by rw [allowed]; rfl) possible))
      | none =>
        have free := unreleasing does allowed
        rcases waits_subscriptions does allowed with ⟨ends, complete⟩ | taken
        · rcases call_advances kept held silent heard complete ends with
            advance | acts | ⟨⟨packet, received⟩, dispatches⟩
          · exact .inl advance
          · rw [allowed] at acts
            cases acts
          · exact .inr (.inr (dispatch_taken heard received (free packet) dispatches))
        · exact (inside (fun packet _ => free packet)
            fun outside => taken (kept.free outside)).imp_right .inr

def MainStage.ahead (complete : Bool) : MainStage → ℕ
  | .outside => if complete then 3 else 2
  | .evaluating => if complete then 2 else 1
  | .blocked => if complete then 3 else 0
  | .unsubscribing => 1
  | .unsubscribingConfirmations => 0

def ReceivingStage.ahead : ReceivingStage → ℕ
  | .returning => 4
  | .outside => 3
  | .dispatching => 2
  | .callingBack => 1
  | .answering => 0

def Locks.ahead (process : Process n σ) (locks : Locks) : ℕ :=
  locks.main.ahead (process.main.answers.any answersComplete) + locks.receiving.ahead

def LockedSystem.ahead (l : LockedSystem n σ) : ℕ :=
  ∑ p, (l.locks p).ahead (l.system.process p)

theorem advance_lowers (advances : locking.advances process locks = true)
    (allowed : locks.after process locking = some locks') :
    locks'.ahead process < locks.ahead process := by
  cases locking with
  | act => cases advances
  | lockSubscriptions =>
    simp only [Locks.after] at allowed
    split at allowed
    next =>
      split_ifs at allowed with free
      cases allowed
      simp [Locks.ahead, free.1, ReceivingStage.ahead]
    next => cases allowed
  | callBack | lockCallback =>
    simp only [Locks.after] at allowed
    split_ifs at allowed with free
    cases allowed
    simp [Locks.ahead, free.1, ReceivingStage.ahead]
  | unlockSubscriptions =>
    simp only [Locks.after] at allowed
    split_ifs at allowed with free
    cases allowed
    simp [Locks.ahead, free, ReceivingStage.ahead]
  | lockAnswers =>
    simp only [Locks.after] at allowed
    split_ifs at allowed with free
    cases allowed
    have fresh : locks.main ≠ .blocked ∨ process.main.answers.any answersComplete = true :=
      of_decide_eq_true advances
    cases main : locks.main with
    | outside => cases complete : process.main.answers.any answersComplete <;>
        simp [Locks.ahead, main, complete, MainStage.ahead]
    | blocked => simp [Locks.ahead, main, fresh.resolve_left (absurd main), MainStage.ahead]
    | evaluating | unsubscribing | unsubscribingConfirmations =>
      rw [main] at free
      cases free.1
  | block | unsubscribe =>
    simp only [Locks.after] at allowed
    split_ifs at allowed with free
    cases allowed
    simp [Locks.ahead, free.1, free.2, MainStage.ahead]
  | unsubscribeNext =>
    simp only [Locks.after] at allowed
    split_ifs at allowed with free
    cases allowed
    simp [Locks.ahead, free.1, MainStage.ahead]

theorem advance_taken {event : LockedEvent n σ}
    (advances : event.2.advances (l.system.process event.1) (l.locks event.1) = true)
    (taken : lockedStep serialization l event = some l') :
    event.2.ofSystem = none ∧ l'.system = l.system ∧ l'.ahead < l.ahead := by
  obtain ⟨self, locking⟩ := event
  have here := ofSystem_of_advances advances
  obtain ⟨locks, s, allowed, moved, rfl⟩ := lockedStep_cases taken
  simp only [LockedSystem.moved, here, Option.some.injEq] at moved
  subst moved
  have lower := advance_lowers advances allowed
  refine ⟨here, rfl, Finset.sum_lt_sum (fun q _ => ?_) ⟨self, Finset.mem_univ self, ?_⟩⟩
  · by_cases mine : q = self
    · subst mine
      simpa using lower.le
    · simp [Function.update_of_ne mine]
  · simpa using lower

/-- What the threads do about the locks comes to an end, in every order. A call that wakes up
without an answer, and blocks again, is left out. -/
theorem locks_settle (run : LockedRun serialization setup contract steps l) :
    Inevitable (lockedStep serialization)
      (fun l event => event.2.advances (l.system.process event.1) (l.locks event.1) = true)
      (fun l' => l'.system = l.system ∧ (∃ steps, LockedRun serialization setup contract steps l') ∧
        ∀ p, ¬(l'.locks p).Advance (l'.system.process p)) l := by
  apply Inevitable.of_rank (I := fun l' => l'.system = l.system ∧
    ∃ steps, LockedRun serialization setup contract steps l') LockedSystem.ahead
  · rintro l' ⟨same, reached⟩ unsettled
    have advance : ∃ p, (l'.locks p).Advance (l'.system.process p) := by
      by_contra settled
      exact unsettled ⟨same, reached, not_exists.1 settled⟩
    obtain ⟨p, locking, advances, allowed⟩ := advance
    obtain ⟨l'', taken⟩ := lock_taken (ofSystem_of_advances advances) allowed
    exact ⟨(p, locking), l'', advances, taken⟩
  · rintro l' event l'' ⟨same, steps', run'⟩ - advances taken
    obtain ⟨here, unchanged, lower⟩ := advance_taken advances taken
    refine ⟨⟨unchanged.trans same, _, .next run' (fun action acts => ?_) taken⟩, lower⟩
    rw [here] at acts
    cases acts
  · exact ⟨rfl, steps, run⟩

/-- Whatever step a process could take but for its locks, in every order of what the threads do
about the locks, waking up without an answer apart, it comes to take it, unless its receiving
thread comes to dispatch before. -/
theorem locks_never_block (run : LockedRun serialization setup contract steps l)
    (heard : (l.system.process p).throws serialization p = false)
    (possible : (step .simple serialization l.system (p, action)).isSome = true) :
    Inevitable (lockedStep serialization)
      (fun l event => event.2.advances (l.system.process event.1) (l.locks event.1) = true)
      (fun l => (lockedStep serialization l (p, .act action)).isSome = true ∨
        (lockedStep serialization l (p, .act .dispatch)).isSome = true) l := by
  apply (locks_settle run).weaken
  rintro l' ⟨same, ⟨steps', run'⟩, settled⟩
  rw [← same] at heard possible
  exact (thread_advances run' heard possible).resolve_left (settled p)

theorem locks_never_block_two : ∃ steps l,
    LockedRun unary (plain 2) (Obeying acquiresOnce) steps l ∧
      (lockedStep unary l (0, .act .acquired)).isNone = true ∧
      (lockedStep unary l (0, .act .dispatch)).isNone = true ∧
      Inevitable (lockedStep unary)
        (fun l event => event.2.advances (l.system.process event.1) (l.locks event.1) = true)
        (fun l => (lockedStep unary l (0, .act .acquired)).isSome = true ∨
          (lockedStep unary l (0, .act .dispatch)).isSome = true) l := by
  obtain ⟨steps, l, run, reached⟩ := exists_execution (lockedStep unary)
    ⟨(plain 2).system, fun _ => .free⟩ (Locked (Obeying acquiresOnce))
    [(0, .act (.lock gate)), (0, .act .queue), (1, .act (.receive 0)), (1, .lockSubscriptions),
      (1, .act .dispatch), (1, .unlockSubscriptions), (1, .act (.lock gate)), (1, .act .queue),
      (0, .act (.receive 1)), (0, .lockSubscriptions), (0, .callBack), (0, .lockCallback),
      (0, .act .dispatch), (0, .unlockSubscriptions), (0, .act (.receive 1)),
      (0, .lockSubscriptions), (0, .lockAnswers), (0, .unsubscribe), (0, .act .dispatch)]
    (fun _ (l : LockedSystem 2 ℕ) => (l.system.process 0).throws unary 0 = false ∧
      (step .simple unary l.system (0, .acquired)).isSome = true ∧
      (lockedStep unary l (0, .act .acquired)).isNone = true ∧
      (lockedStep unary l (0, .act .dispatch)).isNone = true)
    (by decide +kernel)
  obtain ⟨heard, possible, blocked, dispatched⟩ := of_decide_eq_true reached
  exact ⟨steps, l, run, blocked, dispatched, locks_never_block run heard possible⟩

theorem Handshake.over {call : WaitCall σ} {id : SubscriptionId} {confirmations : PacketSet n}
    (handshake : Handshake call.condName s) (wf : s.WellFormed setup)
    (main : (s.process p).main = .confirming call id confirmations)
    (complete : confirmations.size = n - 1) (received : (s.process p).receiving = .received packet)
    (type : packet.messageType = .condNotify) : packet.message ≠ call.condName := by
  intro named
  have listed := notice_received received type named
  by_cases own : packet.source = p
  · rw [own, (handshake.alone p).answers] at listed
    cases listed
  · have counted := counted_of_confirming wf (handshake.alone p) main complete packet.source own
    have acknowledged : (s.pair call.condName p packet.source).acknowledged := by
      simp only [System.pair, main, MainThread.confirmations, if_true]
      exact counted
    rw [(handshake.sound p packet.source (Ne.symm own)).silent acknowledged] at listed
    cases listed

theorem unheard_iff : process.unheard = true ↔ ∃ packet call, process.receiving = .received packet ∧
    process.main.waitCall = some call ∧ packet.messageType = .condNotify ∧
      packet.message = call.condName := by
  unfold Process.unheard
  cases process.receiving <;> cases process.main.waitCall <;> simp

theorem hears_disciplined {usage : Usage} (ready : usage.Ready setup)
    (run : Run .simple serialization setup (Obeying (disciplined usage)) trace s) :
    (s.process p).throws serialization p = false := by
  refine Bool.eq_false_of_not_eq_true fun throws => ?_
  rcases (Bool.or_eq_true ..).mp throws with unaccepted | late
  · cases received : (s.process p).receiving with
    | received packet =>
      obtain ⟨outcome, dispatches⟩ := dispatch_planned ready run received
      rw [received] at unaccepted
      simp [dispatches, Except.toOption] at unaccepted
    | listening | updating =>
      rw [received] at unaccepted
      cases unaccepted
  · obtain ⟨⟨unheard, confirming⟩, complete⟩ :=
      ((Bool.and_eq_true ..).mp late).imp_left (Bool.and_eq_true ..).mp
    obtain ⟨packet, call, received, waits, type, named⟩ := unheard_iff.1 unheard
    cases main : (s.process p).main with
    | confirming other id confirmations =>
      rw [main] at waits complete
      cases waits
      exact (handshake_disciplined run call.condName).over (wellFormed_run run) main
        (of_decide_eq_true complete) received type named
    | _ =>
      rw [main] at confirming
      cases confirming

/-- Disciplined programs meet no exception, not even between the two calls of `unsubscribe` in
`wait`, so that their locks never keep them from going on. -/
theorem locks_go_on {usage : Usage} (ready : usage.Ready setup)
    (run : LockedRun serialization setup (Obeying (disciplined usage)) steps l) (p : ProcessId n) :
    (l.system.process p).throws serialization p = false ∧
      ∀ action, (step .simple serialization l.system (p, action)).isSome = true →
        Inevitable (lockedStep serialization)
          (fun l event => event.2.advances (l.system.process event.1) (l.locks event.1) = true)
          (fun l => (lockedStep serialization l (p, .act action)).isSome = true ∨
            (lockedStep serialization l (p, .act .dispatch)).isSome = true) l := by
  have hears := hears_disciplined ready (run_of_locked run) (p := p)
  refine ⟨hears, fun action possible => ?_⟩
  apply (locks_settle run).weaken
  rintro l' ⟨same, ⟨steps', run'⟩, settled⟩
  rw [← same] at hears possible
  exact (thread_advances run' hears possible).resolve_left (settled p)

def deliverLocked (source recipient : ProcessId n) : List (LockedEvent n ℕ) :=
  [(recipient, .act (.receive source)), (recipient, .lockSubscriptions),
    (recipient, .act .dispatch), (recipient, .unlockSubscriptions)]

theorem locks_go_on_two : ∃ steps l,
    LockedRun unary (shared 2) (Obeying (disciplined sharedUsage)) steps l ∧
      l.locks 0 = ⟨some .receiving, some .main, .unsubscribingConfirmations, .returning⟩ ∧
      (lockedStep unary l (0, .act .waitReturns)).isNone = true ∧
      (l.system.process 0).throws unary 0 = false ∧
      Inevitable (lockedStep unary)
        (fun l event => event.2.advances (l.system.process event.1) (l.locks event.1) = true)
        (fun l => (lockedStep unary l (0, .act .waitReturns)).isSome = true ∨
          (lockedStep unary l (0, .act .dispatch)).isSome = true) l := by
  obtain ⟨steps, l, run, reached⟩ := exists_execution (lockedStep unary)
    ⟨(shared 2).system, fun _ => .free⟩ (Locked (Obeying (disciplined sharedUsage)))
    [[(0, .act (.lock board.1)), (0, .act .queue)], deliverLocked 0 1,
      [(0, .act (.receive 1)), (0, .lockSubscriptions), (0, .callBack), (0, .lockCallback),
        (0, .act .dispatch), (0, .unlockSubscriptions), (0, .lockAnswers), (0, .unsubscribe),
        (0, .act .acquired), (0, .act (.wait news board.1 fun _ => true)), (0, .act .announce),
        (0, .act .evaluate), (0, .act .subscribeConfirmations), (0, .act .announceEnd)],
      deliverLocked 0 1, deliverLocked 0 1, [(1, .act (.lock board.1)), (1, .act .queue)],
      [(0, .act (.receive 1)), (0, .lockSubscriptions), (0, .callBack), (0, .lockCallback),
        (0, .act .dispatch), (0, .unlockSubscriptions), (0, .act (.receive 1)),
        (0, .lockAnswers), (0, .unsubscribe), (0, .unsubscribeNext), (0, .lockSubscriptions),
        (0, .act .dispatch)]].flatten
    (fun _ (l : LockedSystem 2 ℕ) =>
      l.locks 0 = ⟨some .receiving, some .main, .unsubscribingConfirmations, .returning⟩ ∧
      (step .simple unary l.system (0, .waitReturns)).isSome = true ∧
      (lockedStep unary l (0, .act .waitReturns)).isNone = true)
    (by decide +kernel)
  obtain ⟨stages, possible, blocked⟩ := of_decide_eq_true reached
  obtain ⟨hears, goesOn⟩ := locks_go_on (shared_ready 2) run 0
  exact ⟨steps, l, run, stages, blocked, hears, goesOn .waitReturns possible⟩

end DistributedMonitor
