import Mathlib.Data.Fintype.EquivFin
import DistributedMonitor.Conservation

/-! Mutual deferral forms no cycle as long as every request is judged by the stamp its
sender queued: always over the simple communicator, not always over the optimized one. -/

namespace DistributedMonitor
open Library TicketExclusion

variable {n : ℕ} {σ : Type} {communicator : Communicator} {serialization : Serialization σ}
  {setup : Setup n σ} {contract : Permission (System n σ) (Event n σ)}
  {trace : Trace (System n σ) (Event n σ)} {s : System n σ} {e : Event n σ}
  {mutexName : MutexName}

def Process.canReturn (process : Process n σ) (mutexName : MutexName) : Bool :=
  process.main.collecting? = some mutexName ∧ process.acquired.isSome

/-- Where no packet is on its way, whoever waits is held up by an owner or by a process
that can go on. An owner is one until the loop of its release is over. -/
def System.NoDeadlock (s : System n σ) (mutexName : MutexName) : Prop :=
  s.Quiescent → (∃ p, (s.process p).main.collecting? = some mutexName) →
    (∃ q, (s.process q).isOwned mutexName = true) ∨
      ∃ q, (s.process q).canReturn mutexName = true

instance : Decidable s.Quiescent := inferInstanceAs (Decidable (∀ p q, s.pending p q = []))

instance : Decidable (s.NoDeadlock mutexName) :=
  inferInstanceAs (Decidable (s.Quiescent → (∃ p, (s.process p).main.collecting? = some mutexName) →
    (∃ q, (s.process q).isOwned mutexName = true) ∨
      ∃ q, (s.process q).canReturn mutexName = true))

theorem noDeadlock_of_ordered {a : State (ProcessId n)} (inv : Invariant True a)
    (sim : Simulates communicator mutexName s a) (own : ∀ p, (s.process p).Owning)
    (coherent : ∀ p, (s.process p).main.Coherent) : s.NoDeadlock mutexName := by
  rintro quiet ⟨p, waits⟩
  by_cases owned : ∃ q, (s.process q).isOwned mutexName = true
  · exact .inl owned
  · obtain ⟨time, awaiting⟩ := awaiting_of_collecting (own p) waits
    have settled : ∀ x y, a.token x y ≠ .requested ∧ a.token x y ≠ .agreed := by
      intro x y
      have requests := sim.requested x y
      have agreements := sim.agreed x y
      rw [System.requests, quiet] at requests
      rw [System.agreements, quiet] at agreements
      constructor
      · intro requested
        simp [requested] at requests
      · intro agreed
        simp [agreed] at agreements
    have nobody : ∀ q t, a.phase q ≠ .holding t ∧ a.phase q ≠ .releasing t := by
      intro q t
      rw [sim.phase]
      refine ⟨fun holding => owned ⟨q, (holds_iff.1 (holds_of_holding (own q) holding)).1⟩,
        fun releasing => ?_⟩
      have queued : (s.process q).queuedMutexes mutexName = some t :=
        phase_time (by rw [releasing]; rfl)
      refine owned ⟨q, ((own q).owner mutexName (by rw [queued]; rfl)).resolve_right ?_⟩
      intro collects
      obtain ⟨time', awaiting'⟩ := awaiting_of_collecting (own q) collects
      rw [awaiting'] at releasing
      cases releasing
    obtain ⟨q, first, asks, complete⟩ :=
      inv.smallest_complete settled nobody ((sim.phase p).trans awaiting)
    rw [sim.phase] at asks
    obtain ⟨id, received, caller, main⟩ := collecting_of_awaiting asks
    have about := coherent q
    have senders : ∀ r, r ∈ received.senders ↔ a.token q r = .counted := by
      intro r
      rw [← sim.counted, main]
      simp only [MainThread.agreements, if_true]
    rw [main] at about
    have others : q ∉ received.senders := by
      intro member
      exact (inv.token_awaiting q q (by rw [(senders q).1 member]; decide)).1 rfl
    have full := (PacketSet.size_eq_iff about.1 others).2 fun r other =>
      (senders r).2 (complete r other)
    refine .inr ⟨q, ?_⟩
    simp [Process.canReturn, main, MainThread.collecting?, Process.acquired, answersComplete, full]

theorem keepsVerdict_simple (run : Run .simple serialization setup contract trace s)
    (e : Event n σ) : keepsVerdict mutexName s e = true := by
  obtain ⟨a, inv, sim, -⟩ := simulated_unordered run mutexName
  unfold keepsVerdict
  split
  next packet dispatching received =>
    split
    next time read queued =>
      have member : packet.raw ∈ s.pending packet.source e.1 := received_pending received
      have requested := sim.token_requested member read
      obtain ⟨-, own, awaiting⟩ := inv.token_awaiting _ _ (by rw [requested]; decide)
      have stamp := (sim.stamped _ _ _ _ member read awaiting).2 rfl
      rw [sim.phase] at awaiting
      have recorded : some time = some own := queued.symm.trans (phase_time (by rw [awaiting]; rfl))
      have unchanged : { packet with lamportTime := time } = packet := by
        rw [Option.some.inj recorded, ← stamp]
        rfl
      rw [unchanged]
      exact decide_eq_true rfl
    next => rfl
  next => rfl

theorem no_deadlock (run : Run .simple serialization setup (Obeying acquiresOnce) trace s)
    (mutexName : MutexName) : s.NoDeadlock mutexName := by
  obtain ⟨a, inv, sim, -⟩ := simulated run mutexName
    (fun _ _ _ run p => acquiring_unowned (fun _ _ _ may => may) run p)
    (fun (_ : True) _ _ e run _ => keepsVerdict_simple run e)
  exact noDeadlock_of_ordered inv sim (owning_run run) fun p => (wellFormed_run run p).coherent

theorem no_deadlock_two : ∃ trace s, Run .simple unary (plain 2) (Obeying acquiresOnce) trace s ∧
    s.Quiescent ∧ (s.process 1).main.collecting? = some gate ∧ s.NoDeadlock gate := by
  obtain ⟨trace, s, run, facts⟩ := exists_run .simple unary (plain 2) (Obeying acquiresOnce)
    [[(0, .lock gate), (0, .queue), (1, .lock gate), (1, .queue)], deliver 0 1, deliver 1 0,
      deliver 1 0].flatten
    (fun _ s => s.Quiescent ∧ (s.process 1).main.collecting? = some gate) (by decide +kernel)
  obtain ⟨quiet, waits⟩ := of_decide_eq_true facts
  exact ⟨trace, s, run, quiet, waits, no_deadlock run gate⟩

/-- Over the optimized communicator the same holds as long as no rewritten stamp changes a
verdict, that is, turns the request with the smaller ticket away. -/
theorem no_deadlock_optimized (run : Run .optimized serialization setup
      (Obeying fun s e => acquiresOnce s e && keepsVerdict mutexName s e) trace s) :
    s.NoDeadlock mutexName := by
  have both : ∀ s (e : Event n σ), (acquiresOnce s e && keepsVerdict mutexName s e) = true →
      acquiresOnce s e = true ∧ keepsVerdict mutexName s e = true :=
    fun s e may => Bool.and_eq_true_iff.1 may
  obtain ⟨a, inv, sim, -⟩ := simulated run mutexName
    (fun _ _ _ run p => acquiring_unowned (fun _ s e may => (both s e may).1) run p)
    (fun (_ : True) _ s e run may => (both s e may).2)
  exact noDeadlock_of_ordered inv sim (owning_run run) fun p => (wellFormed_run run p).coherent

def deliverUpdated (source recipient : ProcessId n) : List (Event n ℕ) :=
  [(recipient, .receive source), (recipient, .updateTimestamp), (recipient, .dispatch)]

theorem no_deadlock_optimized_two : ∃ trace s, Run .optimized unary (plain 2)
      (Obeying fun s e => acquiresOnce s e && keepsVerdict gate s e) trace s ∧
    s.Quiescent ∧ (s.process 1).main.collecting? = some gate ∧ s.NoDeadlock gate := by
  obtain ⟨trace, s, run, facts⟩ := exists_run .optimized unary (plain 2)
    (Obeying fun s e => acquiresOnce s e && keepsVerdict gate s e)
    [[(0, .lock gate), (0, .queue)], deliverUpdated 0 1, deliverUpdated 1 0, [(0, .acquired),
      (1, .lock gate), (1, .queue)], deliverUpdated 1 0].flatten
    (fun _ s => s.Quiescent ∧ (s.process 1).main.collecting? = some gate) (by decide +kernel)
  obtain ⟨quiet, waits⟩ := of_decide_eq_true facts
  exact ⟨trace, s, run, quiet, waits, no_deadlock_optimized run⟩

/-- Two requests with the stamp 1 cross. Each receiver rewrites the stamp to 2, finds it
larger than its own and defers, and neither ever answers. -/
theorem deadlock_optimized_two : ∃ trace s,
    Run .optimized unary (plain 2) (Obeying acquiresOnce) trace s ∧ ¬s.NoDeadlock gate := by
  obtain ⟨trace, s, run, stuck⟩ := exists_run .optimized unary (plain 2) (Obeying acquiresOnce)
    [[(0, .lock gate), (0, .queue), (1, .lock gate), (1, .queue)], deliverUpdated 0 1,
      deliverUpdated 1 0].flatten
    (fun _ s => ¬s.NoDeadlock gate) (by decide +kernel)
  exact ⟨trace, s, run, of_decide_eq_true stuck⟩

end DistributedMonitor
