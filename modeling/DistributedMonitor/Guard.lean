import DistributedMonitor.Conservation

/-! What is sent only by holders of a mutex travels ahead of the agreement its sender
gives next, so none of it is on its way to the holder after. -/

namespace DistributedMonitor
open Library TicketExclusion

variable {n : ℕ} {σ : Type} {communicator : Communicator} {serialization : Serialization σ}
  {setup : Setup n σ} {contract : Permission (System n σ) (Event n σ)}
  {trace : Trace (System n σ) (Event n σ)} {s s' : System n σ} {e : Event n σ}
  {mutexName : MutexName} {self : ProcessId n} {monitors : List MonitorName}
  {process process' : Process n σ} {action : Action n σ} {consumed : Option (Packet n)}
  {sent : List (Envelope n)}

abbrev Kind := MessageType → ByteString → Prop

def RawPacket.Is (kind : Kind) (raw : RawPacket) : Prop := kind raw.messageType raw.message

structure Guarded (mutexName : MutexName) (kind : Kind) (s : System n σ) : Prop where
  itself : ∀ p, ∀ raw ∈ s.pending p p, ¬raw.Is kind
  behind : ∀ p q, (s.pending q p).Pairwise fun first later =>
    first.carries .mutexAgreement mutexName = true → ¬later.Is kind
  counted : ∀ p q, q ∈ (s.process p).main.agreements mutexName →
    ∀ raw ∈ s.pending q p, ¬raw.Is kind
  holding : ∀ p time, (s.process p).phase mutexName = .holding time →
    ∀ q, ∀ raw ∈ s.pending q p, ¬raw.Is kind

theorem holder_silent (run : Run communicator serialization setup contract trace s)
    {p : ProcessId n} {time : LamportTime}
    (holding : (s.process self).phase mutexName = .holding time) (other : p ≠ self) :
    (∀ raw ∈ s.pending self p, raw.carries .mutexAgreement mutexName = false) ∧
      self ∉ (s.process p).main.agreements mutexName ∧
      ∀ time', (s.process p).phase mutexName ≠ .holding time' := by
  obtain ⟨a, inv, sim, -⟩ := simulated_unordered run mutexName
  have withheld : a.token p self ≠ .agreed ∧ a.token p self ≠ .counted := by
    cases place : a.token p self with
    | agreed | counted =>
      obtain ⟨-, own, asking⟩ := inv.token_awaiting p self (by rw [place]; exact nofun)
      exact place ▸ inv.holder_withholds asking ((sim.phase self).trans holding)
    | _ => exact ⟨nofun, nofun⟩
  refine ⟨fun raw member => ?_, fun listed => withheld.2 ((sim.counted p self).1 listed),
    fun time' holding' => other (holding_unique run holding' holding)⟩
  by_contra agreement
  exact withheld.1 (sim.token_agreed member (Bool.eq_true_of_not_eq_false agreement))

theorem uncounted_self (run : Run communicator serialization setup contract trace s)
    (mutexName : MutexName) (p : ProcessId n) :
    p ∉ (s.process p).main.agreements mutexName := by
  obtain ⟨a, inv, sim, -⟩ := simulated_unordered run mutexName
  intro listed
  have counted := (sim.counted p p).1 listed
  exact (inv.token_awaiting p p (by rw [counted]; decide)).1 rfl

theorem counted_all (run : Run communicator serialization setup contract trace s)
    {messageType : MessageType} {received : PacketSet n}
    (about : received.About messageType mutexName) (full : received.size = n - 1)
    (collected : (s.process p).main.agreements mutexName = received.senders) :
    ∀ q, q ≠ p → q ∈ (s.process p).main.agreements mutexName := by
  have uncounted := uncounted_self run mutexName p
  rw [collected] at uncounted ⊢
  exact (PacketSet.size_eq_iff about uncounted).1 full

theorem counted_of_collecting (run : Run communicator serialization setup contract trace s)
    {id : SubscriptionId} {received : PacketSet n} {caller : Caller σ}
    (main : (s.process p).main = .collecting mutexName id received caller)
    (full : received.size = n - 1) :
    ∀ q, q ≠ p → q ∈ (s.process p).main.agreements mutexName := by
  have coherent := (wellFormed_run run p).coherent
  rw [main] at coherent
  apply counted_all run coherent.1 full
  rw [main]
  exact if_pos rfl

theorem threadStep_sent_single
    (does : ThreadStep serialization self monitors process action consumed process' sent) :
    sent.length ≤ 1 := by
  cases does with
  | main does => cases does <;> simp
  | dispatch received free dispatches does => cases does <;> simp

theorem agreements_step (effect : MutexEffect self mutexName process action consumed process' sent)
    {q : ProcessId n} (listed : q ∈ process'.main.agreements mutexName) :
    q ∈ process.main.agreements mutexName ∨ ∃ packet, consumed = some packet ∧
      packet.source = q ∧ packet.raw.carries .mutexAgreement mutexName = true := by
  cases effect with
  | granted before about collected complete clock phase requests agreements =>
    rw [agreements] at listed
    cases listed
  | counted read clock phase requests agreements =>
    exact ((agreements q).1 listed).imp_right fun same => ⟨_, rfl, same.symm, read⟩
  | quiet _ _ _ _ _ _ agreements | requested _ _ _ _ _ _ agreements | leaving _ _ _ _ agreements
  | answered _ _ _ _ _ agreements | left _ _ _ _ _ agreements | agreed _ _ _ _ _ agreements
  | deferred _ _ _ _ _ _ agreements => exact .inl (agreements ▸ listed)

theorem holding_step (effect : MutexEffect self mutexName process action consumed process' sent)
    {time : LamportTime} (holding : process'.phase mutexName = .holding time) :
    (∃ time, process.phase mutexName = .holding time) ∨ ∃ received : PacketSet n,
      received.About .mutexAgreement mutexName ∧ received.size = n - 1 ∧
        process.main.agreements mutexName = received.senders := by
  cases effect with
  | granted before about collected complete => exact .inr ⟨_, about, complete, collected⟩
  | quiet _ _ _ _ phase | agreed _ _ _ phase | deferred _ _ _ _ phase | counted _ _ phase =>
    exact .inl ⟨time, phase ▸ holding⟩
  | requested _ _ _ _ phase | leaving _ _ phase | answered _ _ _ phase | left _ _ _ phase =>
    rw [phase] at holding
    cases holding

theorem Guarded.quiet {kind : Kind} (guard : Guarded mutexName kind s)
    (pending : ∀ p q, s'.pending p q = s.pending p q)
    (agreements : ∀ p, (s'.process p).main.agreements mutexName =
      (s.process p).main.agreements mutexName)
    (phase : ∀ p, (s'.process p).phase mutexName = (s.process p).phase mutexName) :
    Guarded mutexName kind s' := by
  constructor
  · intro p
    rw [pending]
    exact guard.itself p
  · intro p q
    rw [pending]
    exact guard.behind p q
  · intro p q listed
    rw [pending]
    exact guard.counted p q (agreements p ▸ listed)
  · intro p time holding q
    rw [pending]
    exact guard.holding p time (phase p ▸ holding) q

/-- Nothing a holder sends can come behind an agreement of its own. -/
theorem Guarded.acts {kind : Kind} (guard : Guarded mutexName kind s)
    (run : Run communicator serialization setup contract trace s)
    (does : ThreadStep serialization self monitors (s.process self) action consumed process' sent)
    (sends : ∀ recipient, ∀ raw ∈ addressed sent recipient, raw.Is kind →
      recipient ≠ self ∧ ∃ time, (s.process self).phase mutexName = .holding time) :
    Guarded mutexName kind (s.update self (process', sent)) := by
  have effect : MutexEffect self mutexName (s.process self) action consumed process' sent :=
    mutexEffect (wellFormed_run run self) (owning_run run self) does
  have mine := s.update_own self process' sent
  have others : ∀ p, p ≠ self → (s.update self (process', sent)).process p = s.process p :=
    fun p other => s.update_other other ..
  have kept : ∀ q, ∀ raw ∈ (s.update self (process', sent)).pending q self, raw.Is kind →
      raw ∈ s.pending q self := by
    intro q raw member guarded
    rcases mem_pending_acts does member with old | ⟨-, new⟩
    · exact old
    · exact absurd rfl (sends self raw new guarded).1
  constructor
  · intro p raw member guarded
    by_cases same : p = self
    · subst same
      exact guard.itself p raw (kept p raw member guarded) guarded
    · rcases mem_pending_acts does member with old | ⟨sender, -⟩
      · exact guard.itself p raw old guarded
      · exact same sender
  · intro p q
    obtain ⟨rest, pending, pending'⟩ := pending_acts does q p
    have before := guard.behind p q
    rw [pending] at before
    rw [pending']
    refine List.pairwise_append.2 ⟨(List.pairwise_append.1 before).2.1, ?_, ?_⟩
    · unfold sentFrom
      split_ifs
      · have single : (addressed sent p).length ≤ 1 :=
          (List.length_map ..).trans_le ((List.length_filter_le _ _).trans
            (threadStep_sent_single does))
        cases list : addressed sent p with
        | nil => exact .nil
        | cons first rest =>
          rw [list] at single
          rw [List.eq_nil_of_length_eq_zero (Nat.le_zero.1 (Nat.le_of_succ_le_succ single))]
          exact List.pairwise_singleton _ _
      · exact .nil
    · intro first old later new agreement guarded
      unfold sentFrom at new
      split_ifs at new with same
      · subst same
        obtain ⟨other, time, holding⟩ := sends p later new guarded
        have silent := (holder_silent run holding other).1 first
          (pending ▸ List.mem_append_right _ old)
        rw [silent] at agreement
        cases agreement
      · cases new
  · intro p q listed raw member guarded
    by_cases same : p = self
    · subst same
      rw [mine] at listed
      rcases agreements_step effect listed with before | ⟨packet, rfl, rfl, agreement⟩
      · exact guard.counted p q before raw (kept q raw member guarded) guarded
      · obtain ⟨rest, pending, pending'⟩ := pending_acts does packet.source p
        have behind := guard.behind p packet.source
        rw [pending, dispatchedFrom_source] at behind
        rw [pending'] at member
        rcases List.mem_append.1 member with old | new
        · exact (List.pairwise_cons.1 behind).1 raw old agreement guarded
        · unfold sentFrom at new
          split_ifs at new with same
          · exact (sends p raw new guarded).1 rfl
          · cases new
    · rw [others p same] at listed
      rcases mem_pending_acts does member with old | ⟨rfl, new⟩
      · exact guard.counted p q listed raw old guarded
      · obtain ⟨other, time, holding⟩ := sends p raw new guarded
        exact (holder_silent run holding other).2.1 listed
  · intro p time holding q raw member guarded
    by_cases same : p = self
    · subst same
      rw [mine] at holding
      have old := kept q raw member guarded
      rcases holding_step effect holding with ⟨time, before⟩ | ⟨received, about, full, counted⟩
      · exact guard.holding p time before q raw old guarded
      · by_cases own : q = p
        · subst own
          exact guard.itself q raw old guarded
        · exact guard.counted p q (counted_all run about full counted q own) raw old guarded
    · rw [others p same] at holding
      rcases mem_pending_acts does member with old | ⟨rfl, new⟩
      · exact guard.holding p time holding q raw old guarded
      · obtain ⟨other, time', holding'⟩ := sends p raw new guarded
        exact (holder_silent run holding' other).2.2 time holding

/-- When only holders send messages of a kind, and only to others, a holder has none of
them coming. -/
theorem guarded_run {kind : Kind} (run : Run .simple serialization setup contract trace s)
    (sends : ∀ trace s self action consumed process' sent,
      Run .simple serialization setup contract trace s → contract trace s (self, action) →
      ThreadStep serialization self (setup.monitors self) (s.process self) action consumed
        process' sent →
      ∀ recipient, ∀ raw ∈ addressed sent recipient, raw.Is kind →
        recipient ≠ self ∧ ∃ time, (s.process self).phase mutexName = .holding time) :
    Guarded mutexName kind s := by
  apply run.history_invariant (I := fun _ s => Guarded mutexName kind s)
  · rintro _ rfl
    exact ⟨nofun, fun p q => .nil, nofun, nofun⟩
  · intro trace s e s' run guard may taken
    cases systemStep (wellFormed_run run) taken with
    | receive listening head =>
      refine guard.quiet (pending_receive listening head) (fun p => ?_) (fun p => ?_)
      · exact read_update (fun process => process.main.agreements mutexName) (by rfl) p
      · exact read_update (fun process => process.phase mutexName) (by rfl) p
    | updateTimestamp updating => exact absurd updating (not_updating run _ _)
    | acts does => exact guard.acts run does (sends _ _ _ _ _ _ _ run may does)

theorem pending_run (run : Run .simple serialization setup contract trace s)
    {P : ProcessId n → ProcessId n → RawPacket → Prop}
    (sends : ∀ trace s self action consumed process' sent,
      Run .simple serialization setup contract trace s → contract trace s (self, action) →
      ThreadStep serialization self (setup.monitors self) (s.process self) action consumed
        process' sent → ∀ recipient, ∀ raw ∈ addressed sent recipient, P self recipient raw)
    (p q : ProcessId n) : ∀ raw ∈ s.pending p q, P p q raw := by
  have always : ∀ p q, ∀ raw ∈ s.pending p q, P p q raw := by
    apply run.history_invariant (I := fun _ s => ∀ p q, ∀ raw ∈ s.pending p q, P p q raw)
    · rintro _ rfl p q raw member
      cases member
    · intro trace s e s' run before may taken p q raw member
      cases systemStep (wellFormed_run run) taken with
      | receive listening head =>
        rw [pending_receive listening head] at member
        exact before p q raw member
      | updateTimestamp updating => exact absurd updating (not_updating run _ _)
      | acts does =>
        rcases mem_pending_acts does member with old | ⟨same, new⟩
        · exact before p q raw old
        · exact same ▸ sends _ _ _ _ _ _ _ run may does q raw new
  exact always p q

end DistributedMonitor
