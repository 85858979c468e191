import DistributedMonitor.LocalMonitor
import DistributedMonitor.ProducerConsumer

/-! The local examples: any number of producers and consumers share a queue, with one condition
variable or two. -/

namespace DistributedMonitor
open Library

variable {n : ℕ} {σ ρ : Type} {all : Bool} {initial : σ} {s s' : LocalMonitor n σ ρ}
  {moves : Trace (LocalMonitor n σ ρ) (LocalMove n)} {a : Sequential n σ} {p q : ProcessId n}

namespace LocalQueue

/-- The statements are those of the distributed examples, but here `isFull` asks for at least
`maxSize` elements. -/
def produce (full empty : CondName) (maxSize : ℕ) (request : ρ) : Entry (List ρ) ρ :=
  { QueueMonitor.produce full empty maxSize true request with
    ready := fun queue => !maxSize.ble queue.length }

theorem ready_iff (full empty : CondName) (maxSize : ℕ) (request : ρ) (queue : List ρ) :
    (LocalQueue.produce full empty maxSize request).ready queue = true ↔ queue.length < maxSize := by
  simp only [LocalQueue.produce, Bool.not_eq_true', ← Bool.not_eq_true, Nat.ble_eq, Nat.not_le]

/-- The consumer is that of the distributed examples; with one condition variable `full` is `empty`. -/
def buffering (ρ : Type) [Inhabited ρ] (full empty : CondName) (maxSize : ℕ) :
    Buffering (List ρ) ρ :=
  { QueueMonitor.buffering ρ full empty maxSize true with
    produce := LocalQueue.produce full empty maxSize
    hasRoom := by
      rintro queue _ request ⟨rfl, -⟩
      exact ready_iff full empty maxSize request queue
    produces := (QueueMonitor.buffering ρ full empty maxSize true).produces }

end LocalQueue

structure Buffering.ConservesLocally (buffering : Buffering σ ρ) (requests : ℕ → ρ) (all : Bool)
    (moves : Trace (LocalMonitor n σ ρ) (LocalMove n)) (s : LocalMonitor n σ ρ) : Prop where
  produced : ∀ p, isProducer p = true → returnedBy (· = p)
      (recorded (LocalMonitor.returns (buffering.program requests)) moves) =
    (List.range (s.finished p)).map requests
  consumed : ∃ values, values.length ≤ buffering.size ∧ returnedBy isProducer
      (recorded (LocalMonitor.returns (buffering.program requests)) moves) = returnedBy isConsumer
      (recorded (LocalMonitor.returns (buffering.program requests)) moves) ++ values
  defined : ∀ p done locals, s.thread p = .running (.body done locals) →
    (s.step all (buffering.program requests) (.thread p)).isSome

section
variable {buffering : Buffering σ ρ} {requests : ℕ → ρ}

theorem Buffering.defined_locally (tracks : s.Tracks (buffering.program requests) a)
    {values : List ρ} (holds : buffering.Holds a.state values) {done : ℕ} {locals : ρ}
    (here : s.thread p = .running (.body done locals)) :
    (s.step all (buffering.program requests) (.thread p)).isSome := by
  obtain ⟨short, ready, sofar⟩ := tracks.inside p done locals here
  have current : a.round p = s.round p := by
    rw [tracks.round, LocalMonitor.finished, here]
    rfl
  rw [← current] at ready
  have runs := buffering.runs holds ready
  rw [current] at runs
  have comes := List.getElem?_eq_getElem short
  obtain ⟨after, does⟩ := Option.isSome_iff_exists.1 (Entry.runTo_some runs sofar comes)
  simp only [LocalMonitor.step, here]
  rw [comes, Option.bind_eq_bind, Option.bind_some, does]
  rfl

theorem Buffering.conserved_locally (empty : buffering.Holds initial [])
    (run : LocalMonitor.Run all (buffering.program requests) initial moves s) :
    buffering.ConservesLocally requests all moves s := by
  obtain ⟨history, a, sequential, same, tracks⟩ := LocalMonitor.local_linearized run
  obtain ⟨values, holds, exchanged⟩ := buffering.conserves empty sequential
  rw [same] at exchanged
  refine ⟨fun p producer => ?_, ⟨values, buffering.bounded holds, exchanged⟩, ?_⟩
  · rw [← same, buffering.produced empty sequential producer, tracks.round]
  · exact fun p done locals here => Buffering.defined_locally tracks holds here

end

/-- Any number of threads that share a queue, with one condition variable or two, whoever is
notified: each value goes through the buffer once and in order. -/
theorem local_delivers [Inhabited ρ] (full empty : CondName) (maxSize : ℕ) (requests : ℕ → ρ)
    {moves : Trace (LocalMonitor n (List ρ) ρ) (LocalMove n)} {s : LocalMonitor n (List ρ) ρ}
    (run : LocalMonitor.Run all ((LocalQueue.buffering ρ full empty maxSize).program requests) []
      moves s) :
    (LocalQueue.buffering ρ full empty maxSize).ConservesLocally requests all moves s := by
  have nothing : (LocalQueue.buffering ρ full empty maxSize).Holds [] [] := ⟨rfl, Nat.zero_le _⟩
  exact Buffering.conserved_locally nothing run

theorem local_delivers_two : ∃ moves, ∃ s : LocalMonitor 2 (List UInt8) UInt8,
    LocalMonitor.Run true ((LocalQueue.buffering UInt8 [99] [99] 5).program UInt8.ofNat) []
      moves s ∧
    returnedBy isConsumer (recorded (LocalMonitor.returns
      ((LocalQueue.buffering UInt8 [99] [99] 5).program UInt8.ofNat)) moves) = [0] ∧
    (LocalQueue.buffering UInt8 [99] [99] 5).ConservesLocally UInt8.ofNat true moves s := by
  obtain ⟨moves, s, run, reached⟩ := exists_execution
    (LocalMonitor.step true ((LocalQueue.buffering UInt8 [99] [99] 5).program UInt8.ofNat))
    (LocalMonitor.initially ([] : List UInt8)) (fun _ _ _ => True)
    [.thread (1 : ProcessId 2), .thread 1, .thread 0, .thread 0, .thread 0, .thread 0,
      .notify 0 none, .thread 1, .thread 1, .thread 1, .thread 1]
    (fun moves _ => returnedBy isConsumer (recorded (LocalMonitor.returns
      ((LocalQueue.buffering UInt8 [99] [99] 5).program UInt8.ofNat)) moves) = [0])
    (by decide +kernel)
  exact ⟨moves, s, run, of_decide_eq_true reached, local_delivers [99] [99] 5 UInt8.ofNat run⟩

end DistributedMonitor
