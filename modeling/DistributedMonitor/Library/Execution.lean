import Mathlib.Data.Nat.Notation
import Mathlib.Logic.Relation

/-! Executions of a partial step function. An execution records the states it
left and the events taken there, newest first, so that a permission for the next
event, or a history read off a run, is a plain function of the list. -/

namespace DistributedMonitor.Library

variable {State Event Abstract : Type*}

abbrev Trace (State Event : Type*) := List (State × Event)

/-- Which event may come next, after the recorded steps and in the current state. -/
abbrev Permission (State Event : Type*) := Trace State Event → State → Event → Prop

inductive Execution (step : State → Event → Option State) (start : State → Prop)
    (permitted : Permission State Event) : Trace State Event → State → Prop where
  | start {s : State} (initial : start s) : Execution step start permitted [] s
  | next {trace : Trace State Event} {s s' : State} {e : Event}
      (run : Execution step start permitted trace s) (may : permitted trace s e)
      (taken : step s e = some s') : Execution step start permitted ((s, e) :: trace) s'

variable {step : State → Event → Option State} {start : State → Prop}
  {permitted : Permission State Event} {trace : Trace State Event} {s : State}

/-- A history: what the events of a run have to show, the latest first. -/
def recorded {α : Type*} (read : State → Event → Option α) (trace : Trace State Event) : List α :=
  trace.filterMap fun entry => read entry.1 entry.2

section
variable {α : Type*} {read : State → Event → Option α} {e : Event}

theorem recorded_none (nothing : read s e = none) :
    recorded read ((s, e) :: trace) = recorded read trace := by
  simp only [recorded, List.filterMap_cons, nothing]

theorem recorded_some {shown : α} (shows : read s e = some shown) :
    recorded read ((s, e) :: trace) = shown :: recorded read trace := by
  simp only [recorded, List.filterMap_cons, shows]

theorem mem_recorded {shown : α} : shown ∈ recorded read trace ↔
    ∃ entry ∈ trace, read entry.1 entry.2 = some shown :=
  List.mem_filterMap

end

/-- A history of what events show several of, the oldest first. -/
def chronicle {α : Type*} (read : State → Event → List α) : Trace State Event → List α
  | [] => []
  | entry :: earlier => chronicle read earlier ++ read entry.1 entry.2

theorem chronicle_append {α : Type*} (read : State → Event → List α)
    (later earlier : Trace State Event) :
    chronicle read (later ++ earlier) = chronicle read earlier ++ chronicle read later := by
  induction later with
  | nil => exact (List.append_nil _).symm
  | cons entry later ih => simp only [List.cons_append, chronicle, ih, List.append_assoc]

theorem mem_chronicle {α : Type*} {read : State → Event → List α} {shown : α} :
    shown ∈ chronicle read trace ↔ ∃ entry ∈ trace, shown ∈ read entry.1 entry.2 := by
  induction trace with
  | nil => simp [chronicle]
  | cons entry earlier ih => simp [chronicle, ih, or_comm]

/-- What holds at the start and is kept by every permitted step of a run holds
throughout the run, with the trace in view. -/
theorem Execution.history_invariant {I : Trace State Event → State → Prop}
    (run : Execution step start permitted trace s)
    (initially : ∀ s, start s → I [] s)
    (kept : ∀ trace s e s', Execution step start permitted trace s → I trace s →
      permitted trace s e → step s e = some s' → I ((s, e) :: trace) s') : I trace s := by
  induction run with
  | start initial => exact initially _ initial
  | next run may taken ih => exact kept _ _ _ _ run ih may taken

theorem Execution.invariant {I : State → Prop}
    (run : Execution step start permitted trace s)
    (initially : ∀ s, start s → I s)
    (kept : ∀ trace s e s', Execution step start permitted trace s → I s →
      permitted trace s e → step s e = some s' → I s') : I s :=
  run.history_invariant (I := fun _ s => I s) initially kept

theorem Execution.earlier {later earlier : Trace State Event} {s₀ : State} {e : Event}
    (run : Execution step start permitted (later ++ (s₀, e) :: earlier) s) :
    Execution step start permitted earlier s₀ := by
  induction later generalizing s with
  | nil =>
    cases run with
    | next run => exact run
  | cons entry later ih =>
    cases run with
    | next run => exact ih run

theorem Execution.taken {later earlier : Trace State Event} {s₀ : State} {e : Event}
    (run : Execution step start permitted (later ++ (s₀, e) :: earlier) s) :
    ∃ s₁, step s₀ e = some s₁ := by
  induction later generalizing s with
  | nil =>
    cases run with
    | next _ _ taken => exact ⟨_, taken⟩
  | cons entry later ih =>
    cases run with
    | next run => exact ih run

theorem Execution.weaken {permitted' : Permission State Event}
    (run : Execution step start permitted trace s)
    (allowed : ∀ trace s e, permitted trace s e → permitted' trace s e) :
    Execution step start permitted' trace s := by
  induction run with
  | start initial => exact .start initial
  | next _ may taken ih => exact .next ih (allowed _ _ _ may) taken

theorem Execution.append {start' : State → Prop} {later : Trace State Event} {s' : State}
    (more : Execution step (· = s) (fun latest => permitted (latest ++ trace)) later s')
    (run : Execution step start' permitted trace s) :
    Execution step start' permitted (later ++ trace) s' := by
  induction more with
  | start initial => exact initial ▸ run
  | next _ may taken ih => exact .next ih may taken

theorem Execution.length_le {I : State → Prop} {measure : State → ℕ} {s₀ : State}
    (run : Execution step (· = s₀) permitted trace s) (initially : I s₀)
    (descends : ∀ trace s e s', I s → permitted trace s e → step s e = some s' →
      I s' ∧ measure s' < measure s) : I s ∧ trace.length + measure s ≤ measure s₀ := by
  induction run with
  | start initial =>
    subst initial
    exact ⟨initially, by simp⟩
  | next _ may taken ih =>
    obtain ⟨holds, bound⟩ := ih
    obtain ⟨holds', less⟩ := descends _ _ _ _ holds may taken
    refine ⟨holds', ?_⟩
    rw [List.length_cons]
    omega

/-- Forward simulation: every run is matched by a chain of abstract steps. The
abstract state reached so far may be used in matching the next step. -/
theorem Execution.simulated {abstractStart : Abstract → Prop}
    {abstractStep : Abstract → Abstract → Prop}
    {R : Trace State Event → State → Abstract → Prop}
    (run : Execution step start permitted trace s)
    (initially : ∀ s, start s → ∃ a, abstractStart a ∧ R [] s a)
    (matched : ∀ trace s e s' a, Execution step start permitted trace s →
      (∃ a₀, abstractStart a₀ ∧ Relation.ReflTransGen abstractStep a₀ a) → R trace s a →
      permitted trace s e → step s e = some s' →
      ∃ a', Relation.ReflTransGen abstractStep a a' ∧ R ((s, e) :: trace) s' a') :
    ∃ a, (∃ a₀, abstractStart a₀ ∧ Relation.ReflTransGen abstractStep a₀ a) ∧ R trace s a := by
  induction run with
  | start initial =>
    obtain ⟨a, begins, related⟩ := initially _ initial
    exact ⟨a, ⟨a, begins, .refl⟩, related⟩
  | next run may taken ih =>
    obtain ⟨a, ⟨a₀, begins, chain⟩, related⟩ := ih
    obtain ⟨a', steps, related'⟩ := matched _ _ _ _ _ run ⟨a₀, begins, chain⟩ related may taken
    exact ⟨a', ⟨a₀, begins, chain.trans steps⟩, related'⟩

/-- Refinement: a run that shows nothing but steps of another system is a run there. -/
theorem Execution.refines {Concrete Event' : Type*} {step' : Concrete → Event' → Option Concrete}
    {start' : Concrete → Prop} {permitted' : Permission Concrete Event'}
    {steps : Trace Concrete Event'} {c : Concrete} (view : Concrete → State)
    (read : Concrete → Event' → Option (State × Event))
    (run : Execution step' start' permitted' steps c) (initially : ∀ c, start' c → start (view c))
    (matched : ∀ steps c e c', Execution step' start' permitted' steps c → permitted' steps c e →
      step' c e = some c' → read c e = none ∧ view c' = view c ∨
        ∃ shown, read c e = some (view c, shown) ∧ permitted (recorded read steps) (view c) shown ∧
          step (view c) shown = some (view c')) :
    Execution step start permitted (recorded read steps) (view c) := by
  induction run with
  | start initial => exact .start (initially _ initial)
  | next run may taken ih =>
    rcases matched _ _ _ _ run may taken with ⟨nothing, same⟩ | ⟨shown, shows, may', taken'⟩
    · rw [recorded_none nothing, same]
      exact ih
    · rw [recorded_some shows]
      exact .next ih may' taken'

/-- Run a list of events, checking the permission before each of them. -/
def replay (step : State → Event → Option State) (permitted : Permission State Event)
    [∀ trace s e, Decidable (permitted trace s e)] :
    Trace State Event → State → List Event → Option (Trace State Event × State)
  | trace, s, [] => some (trace, s)
  | trace, s, e :: rest =>
      if permitted trace s e then
        match step s e with
        | some s' => replay step permitted ((s, e) :: trace) s' rest
        | none => none
      else none

theorem execution_of_replay [∀ trace s e, Decidable (permitted trace s e)]
    {events : List Event} {last : Trace State Event × State}
    (run : Execution step start permitted trace s)
    (replayed : replay step permitted trace s events = some last) :
    Execution step start permitted last.1 last.2 := by
  induction events generalizing trace s with
  | nil =>
    cases replayed
    exact run
  | cons e rest ih =>
    simp only [replay] at replayed
    split at replayed
    next may =>
      split at replayed
      next s' taken => exact ih (.next run may taken) replayed
      next stuck => cases replayed
    next forbidden => cases replayed

/-- A list of events that replays to a state with some property is a run that reaches it. -/
theorem exists_execution (step : State → Event → Option State) (initial : State)
    (permitted : Permission State Event) [∀ trace s e, Decidable (permitted trace s e)]
    (events : List Event) (check : Trace State Event → State → Bool)
    (passes : (replay step permitted [] initial events).any
      (fun last => check last.1 last.2) = true) :
    ∃ trace s', Execution step (· = initial) permitted trace s' ∧ check trace s' = true := by
  obtain ⟨last, replayed, passed⟩ := (Option.any_eq_true ..).1 passes
  exact ⟨last.1, last.2, execution_of_replay (.start rfl) replayed, passed⟩

end DistributedMonitor.Library
