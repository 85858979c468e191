import Mathlib.Order.WellFounded
import DistributedMonitor.Library.Execution

/-! What a system cannot avoid. A goal is inevitable when no order of the allowed steps misses it:
none of them goes on for ever without it, and none stops short of it. -/

namespace DistributedMonitor.Library

variable {State Event : Type*}

inductive Inevitable (step : State → Event → Option State) (allowed : State → Event → Prop)
    (goal : State → Prop) : State → Prop where
  | reached {s : State} (holds : goal s) : Inevitable step allowed goal s
  | onward {s : State} (possible : ∃ e s', allowed s e ∧ step s e = some s')
      (always : ∀ e s', allowed s e → step s e = some s' → Inevitable step allowed goal s') :
      Inevitable step allowed goal s

variable {step : State → Event → Option State} {allowed : State → Event → Prop}
  {goal goal' : State → Prop} {s : State}

theorem Inevitable.mono {I : State → Prop} (inevitable : Inevitable step allowed goal s)
    (initially : I s) (kept : ∀ s e s', I s → allowed s e → step s e = some s' → I s')
    (reaches : ∀ s, I s → goal s → goal' s) : Inevitable step allowed goal' s := by
  induction inevitable with
  | reached holds => exact .reached (reaches _ initially holds)
  | onward possible _ ih =>
    exact .onward possible fun e s' may taken => ih e s' may taken (kept _ _ _ initially may taken)

theorem Inevitable.weaken (inevitable : Inevitable step allowed goal s)
    (reaches : ∀ s, goal s → goal' s) : Inevitable step allowed goal' s :=
  inevitable.mono (I := fun _ => True) trivial (fun _ _ _ _ _ _ => trivial) fun s _ => reaches s

/-- A goal is inevitable where every step short of it lowers a rank and there always is one. -/
theorem Inevitable.of_rank {α : Type*} [Preorder α] [WellFoundedLT α] {I : State → Prop}
    (rank : State → α) (progress : ∀ s, I s → ¬goal s → ∃ e s', allowed s e ∧ step s e = some s')
    (descends : ∀ s e s', I s → ¬goal s → allowed s e → step s e = some s' →
      I s' ∧ rank s' < rank s) (initially : I s) : Inevitable step allowed goal s := by
  induction less : rank s using WellFoundedLT.induction generalizing s with
  | ind r ih =>
    subst less
    by_cases holds : goal s
    · exact .reached holds
    · refine .onward (progress s initially holds) fun e s' may taken => ?_
      obtain ⟨initially', lower⟩ := descends s e s' initially holds may taken
      exact ih _ lower initially' rfl

/-- What cannot be avoided in a simulation cannot be avoided in what it simulates, where no step of
the simulation answers only finitely many steps in a row. -/
theorem Inevitable.transferred {Concrete Event' α : Type*} [Preorder α] [WellFoundedLT α]
    {step' : Concrete → Event' → Option Concrete} {allowed' : Concrete → Event' → Prop}
    {goal' : Concrete → Prop} {R : State → Concrete → α → Prop}
    (inevitable : Inevitable step allowed goal s)
    (progress : ∀ s c r, R s c r → ¬goal' c → ∃ e c', allowed' c e ∧ step' c e = some c')
    (matched : ∀ s c r e c', R s c r → ¬goal' c → allowed' c e → step' c e = some c' →
      (∃ r', r' < r ∧ R s c' r') ∨
        ∃ e s' r', allowed s e ∧ step s e = some s' ∧ R s' c' r')
    (reaches : ∀ s c r, R s c r → goal s → goal' c) {c : Concrete} {r : α} (related : R s c r) :
    Inevitable step' allowed' goal' c := by
  induction inevitable generalizing c r with
  | @reached s holds => exact .reached (reaches s c r related holds)
  | @onward s _ _ ih =>
    induction r using WellFoundedLT.induction generalizing c with
    | ind r stutters =>
      by_cases holds : goal' c
      · exact .reached holds
      · refine .onward (progress s c r related holds) fun e c' may taken => ?_
        rcases matched s c r e c' related holds may taken with
          ⟨r', less, related'⟩ | ⟨e', s', r', may', taken', related'⟩
        · exact stutters r' less related'
        · exact ih e' s' may' taken' related'

end DistributedMonitor.Library
