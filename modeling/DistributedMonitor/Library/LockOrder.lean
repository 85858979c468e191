import Mathlib.Data.Finset.Max

/-! Taking several locks one after the other. Processes that wait for each other have taken
theirs in orders that close a ring, so orders that close none exclude a deadlock. -/

namespace DistributedMonitor.Library

variable {Process Lock Rank : Type*}

/-- A ring: each member has taken locks that no other member has, and its order goes on with a
lock that another member has taken. -/
structure Ring (orders : Process → List Lock → Prop) (members : Finset Process)
    (taken : Process → List Lock) (wants : Process → Lock) : Prop where
  nonempty : members.Nonempty
  ordered : ∀ p ∈ members, ∃ rest, orders p (taken p ++ wants p :: rest)
  apart : ∀ p ∈ members, ∀ q ∈ members, p ≠ q → ∀ lock ∈ taken p, lock ∉ taken q
  waits : ∀ p ∈ members, ∃ q ∈ members, q ≠ p ∧ wants p ∈ taken q

/-- The orders in which processes may take their locks close no ring. -/
def RingFree (orders : Process → List Lock → Prop) : Prop :=
  ∀ members taken wants, ¬Ring orders members taken wants

/-- A ring would wait for ever larger locks. -/
theorem ringFree_of_sorted [LinearOrder Rank] {orders : Process → List Lock → Prop}
    (rank : Lock → Rank)
    (sorted : ∀ p order, orders p order → order.Pairwise fun first later => rank first < rank later) :
    RingFree orders := by
  intro members taken wants ring
  obtain ⟨p, member, largest⟩ := members.exists_max_image (fun p => rank (wants p)) ring.nonempty
  obtain ⟨q, member', -, held⟩ := ring.waits p member
  obtain ⟨rest, order⟩ := ring.ordered q member'
  have larger : rank (wants p) < rank (wants q) :=
    (List.pairwise_append.1 (sorted q _ order)).2.2 _ held _ (List.mem_cons_self ..)
  exact absurd larger (largest q member').not_gt

end DistributedMonitor.Library
