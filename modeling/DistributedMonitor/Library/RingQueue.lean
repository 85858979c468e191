import Mathlib.Data.Nat.ModEq
import Mathlib.Logic.Function.Basic

/-! A queue in a ring of slots. The slots in use follow one another from the first on and go
around; the one after the last of them takes the next value. -/

namespace DistributedMonitor.Library

structure RingQueue (α : Type*) (capacity : ℕ) where
  slots : Fin capacity → α
  first : Fin capacity
  length : ℕ
  fits : length ≤ capacity

namespace RingQueue

variable {α : Type*} {capacity : ℕ}

def slot (queue : RingQueue α capacity) (i : ℕ) : Fin capacity :=
  ⟨(queue.first + i) % capacity, Nat.mod_lt _ queue.first.pos⟩

def contents (queue : RingQueue α capacity) : List α :=
  (List.range queue.length).map fun i => queue.slots (queue.slot i)

def put (queue : RingQueue α capacity) (value : α) (room : queue.length < capacity) :
    RingQueue α capacity where
  slots := Function.update queue.slots (queue.slot queue.length) value
  first := queue.first
  length := queue.length + 1
  fits := room

def take (queue : RingQueue α capacity) : RingQueue α capacity where
  slots := queue.slots
  first := queue.slot 1
  length := queue.length - 1
  fits := (Nat.sub_le _ _).trans queue.fits

theorem length_contents (queue : RingQueue α capacity) : queue.contents.length = queue.length := by
  rw [contents, List.length_map, List.length_range]

theorem slot_inj (queue : RingQueue α capacity) {i j : ℕ} (hi : i < capacity) (hj : j < capacity)
    (same : queue.slot i = queue.slot j) : i = j := by
  have congruent : (queue.first + i) % capacity = (queue.first + j) % capacity :=
    congrArg Fin.val same
  have := Nat.ModEq.add_left_cancel' (queue.first : ℕ) congruent
  rwa [Nat.ModEq, Nat.mod_eq_of_lt hi, Nat.mod_eq_of_lt hj] at this

theorem slot_zero (queue : RingQueue α capacity) : queue.slot 0 = queue.first :=
  Fin.ext (Nat.mod_eq_of_lt queue.first.isLt)

theorem slot_take (queue : RingQueue α capacity) (i : ℕ) :
    queue.take.slot i = queue.slot (i + 1) := by
  apply Fin.ext
  change ((queue.first + 1) % capacity + i) % capacity = (queue.first + (i + 1)) % capacity
  rw [Nat.mod_add_mod, Nat.add_assoc, Nat.add_comm 1 i]

theorem contents_put (queue : RingQueue α capacity) (value : α) (room : queue.length < capacity) :
    (queue.put value room).contents = queue.contents ++ [value] := by
  have kept : ∀ i ∈ List.range queue.length,
      (queue.put value room).slots (queue.slot i) = queue.slots (queue.slot i) := by
    intro i used
    have before := List.mem_range.1 used
    refine Function.update_of_ne (fun same => ?_) ..
    have := queue.slot_inj (before.trans room) room same
    omega
  calc (queue.put value room).contents
    _ = (List.range (queue.length + 1)).map fun i =>
          (queue.put value room).slots (queue.slot i) := rfl
    _ = queue.contents ++ [(queue.put value room).slots (queue.slot queue.length)] := by
      rw [List.range_succ, List.map_append, List.map_congr_left kept]
      rfl
    _ = queue.contents ++ [value] := by
      congr 2
      exact Function.update_self ..

theorem contents_take (queue : RingQueue α capacity) (used : 0 < queue.length) :
    queue.contents = queue.slots queue.first :: queue.take.contents := by
  obtain ⟨length, more⟩ := Nat.exists_eq_add_one.2 used
  have left : queue.take.length = length := by
    change queue.length - 1 = length
    omega
  rw [contents, contents, left, more, List.range_succ_eq_map, List.map_cons, List.map_map,
    slot_zero]
  congr 1
  apply List.map_congr_left
  intro i _
  rw [slot_take]
  rfl

end RingQueue

end DistributedMonitor.Library
