import Mathlib.Data.List.Basic
import Mathlib.Logic.Relation
import Mathlib.Order.Nat

/-! Logical clocks. Events stand in a list in the order they happened in; one happens before
another if a chain of events of one process and of deliveries leads there, and a clock that
respects both kinds of link respects the chains. -/

namespace DistributedMonitor.Library

variable {α P C : Type*} {process : α → P} {delivers : α → α → Prop} {clock : α → C}
  {events : List α} {i j : ℕ} {first later : α}

def Direct (process : α → P) (delivers : α → α → Prop) (events : List α) (i j : ℕ) : Prop :=
  i < j ∧ ∃ first later, events[i]? = some first ∧ events[j]? = some later ∧
    (process first = process later ∨ delivers first later)

def HappensBefore (process : α → P) (delivers : α → α → Prop) (events : List α) : ℕ → ℕ → Prop :=
  Relation.TransGen (Direct process delivers events)

def Clocked [LT C] (process : α → P) (delivers : α → α → Prop) (clock : α → C)
    (events : List α) : Prop :=
  events.Pairwise fun first later =>
    process first = process later ∨ delivers first later → clock first < clock later

namespace Clocked

variable [Preorder C]

theorem snoc (clocked : Clocked process delivers clock events)
    (grows : ∀ first ∈ events, process first = process later ∨ delivers first later →
      clock first < clock later) : Clocked process delivers clock (events ++ [later]) := by
  refine List.pairwise_append.2 ⟨clocked, List.pairwise_singleton _ _, ?_⟩
  intro first member last new
  rw [List.mem_singleton.1 new]
  exact grows first member

theorem lt_of_lt (clocked : Clocked process delivers clock events) (less : i < j)
    (here : events[i]? = some first) (there : events[j]? = some later)
    (link : process first = process later ∨ delivers first later) : clock first < clock later := by
  obtain ⟨bound, rfl⟩ := List.getElem?_eq_some_iff.1 here
  obtain ⟨bound', rfl⟩ := List.getElem?_eq_some_iff.1 there
  exact List.pairwise_iff_getElem.1 clocked i j bound bound' less link

/-- The clock condition: the induction is on the chain. -/
theorem lt_of_happensBefore (clocked : Clocked process delivers clock events)
    (before : HappensBefore process delivers events i j) (here : events[i]? = some first)
    (there : events[j]? = some later) : clock first < clock later := by
  induction before generalizing later with
  | single link =>
    obtain ⟨less, first', later', here', there', link⟩ := link
    cases here.symm.trans here'
    cases there.symm.trans there'
    exact clocked.lt_of_lt less here there link
  | tail chain link ih =>
    obtain ⟨less, middle, later', here', there', link⟩ := link
    cases there.symm.trans there'
    exact (ih here').trans (clocked.lt_of_lt less here' there link)

theorem unique (clocked : Clocked process delivers clock events) (here : events[i]? = some first)
    (there : events[j]? = some later) (together : process first = process later)
    (same : clock first = clock later) : i = j := by
  rcases lt_trichotomy i j with less | equal | greater
  · exact absurd same (clocked.lt_of_lt less here there (.inl together)).ne
  · exact equal
  · exact absurd same.symm (clocked.lt_of_lt greater there here (.inl together.symm)).ne

end Clocked

end DistributedMonitor.Library
