import DistributedMonitor.Handshake

/-! The table of waits: what the end of one wait does to the others listed with it, and
who a later notification of all still reaches. -/

namespace DistributedMonitor
open Library Registration

variable {n : ℕ} {σ : Type} {communicator : Communicator} {serialization : Serialization σ}
  {setup : Setup n σ} {contract : Permission (System n σ) (Event n σ)}
  {trace : Trace (System n σ) (Event n σ)} {s s' : System n σ} {e : Event n σ}
  {condName : CondName} {self p q r : ProcessId n} {monitors : List MonitorName}
  {process process' : Process n σ} {action : Action n σ} {consumed : Option (Packet n)}
  {sent : List (Envelope n)} {packet : Packet n}

def Process.lists (process : Process n σ) (condName : CondName) (p : ProcessId n) : Bool :=
  p ∈ (process.waits condName).senders

def Process.endOf (process : Process n σ) (condName : CondName) (p : ProcessId n) : Bool :=
  match process.receiving with
  | .received packet => packet.messageType = .condWaitEnd ∧ packet.message = condName ∧
      packet.source = p
  | _ => false

/-- Ending a wait takes its process out of the list, and nobody else out of any list. -/
structure EndsOne (condName : CondName) (p : ProcessId n) (process process' : Process n σ) :
    Prop where
  removed : process'.lists condName p = false
  kept : ∀ r, r ≠ p → process.lists condName r = true → process'.lists condName r = true
  others : ∀ other, other ≠ condName → process'.waits other = process.waits other

/-- Nobody else is listed where a wait ends. -/
def endsAlone (condName : CondName) (s : System n σ) (e : Event n σ) : Bool :=
  match e.2 with
  | .dispatch => ∀ p r, (s.process e.1).endOf condName p = true →
      (s.process e.1).lists condName r = true → r = p
  | _ => true

def stillWaits (condName : CondName) (r q : ProcessId n) (s : System n σ) (e : Event n σ) : Bool :=
  match e.2 with
  | .dispatch => e.1 ≠ q ∨ (s.process q).endOf condName r = false
  | _ => true

theorem endOf_iff : process.endOf condName p = true ↔ ∃ packet, process.receiving = .received packet ∧
    packet.messageType = .condWaitEnd ∧ packet.message = condName ∧ packet.source = p := by
  unfold Process.endOf
  cases process.receiving <;> simp

theorem waits_ended (does : Dispatched self packet monitors process process' sent)
    (type : packet.messageType = .condWaitEnd) :
    process'.waits packet.message = .empty ∧
      ∀ other, other ≠ packet.message → process'.waits other = process.waits other := by
  cases does with
  | ended =>
    refine ⟨?_, fun other differs => ?_⟩
    · simp only [Process.waits, AList.lookup_erase, Option.getD_none]
    · simp only [Process.waits, AList.lookup_erase_ne differs]
  | agreed type' | deferred type' | early type' | counted type' | waiting type' | notified type'
  | confirmed type' | synced type' => cases type.symm.trans type'

theorem dispatch_end (run : Run communicator serialization setup contract trace s)
    (ends : (s.process q).endOf condName p = true)
    (taken : step communicator serialization s (q, .dispatch) = some s') :
    (s'.process q).waits condName = .empty ∧
      ∀ other, other ≠ condName → (s'.process q).waits other = (s.process q).waits other := by
  obtain ⟨packet, received, type, rfl, rfl⟩ := endOf_iff.1 ends
  cases systemStep (wellFormed_run run) taken with
  | acts does =>
    rw [System.update_own]
    cases does with
    | main does =>
      cases does with
      | configured called => cases called
      | notify called => rcases called with called | called <;> cases called
    | dispatch received' free dispatches does =>
      cases received.symm.trans received'
      exact waits_ended does type

theorem endsOne_iff (run : Run communicator serialization setup contract trace s)
    (ends : (s.process q).endOf condName p = true)
    (taken : step communicator serialization s (q, .dispatch) = some s') :
    EndsOne condName p (s.process q) (s'.process q) ↔
      ∀ r, (s.process q).lists condName r = true → r = p := by
  obtain ⟨cleared, others⟩ := dispatch_end run ends taken
  have nobody : ∀ r, (s'.process q).lists condName r = false := by
    intro r
    rw [Process.lists, cleared]
    rfl
  constructor
  · intro one r listed
    by_contra different
    have kept := one.kept r different listed
    rw [nobody] at kept
    cases kept
  · intro alone
    exact ⟨nobody p, fun r different listed => absurd (alone r listed) different, others⟩

theorem lists_step (wf : s.WellFormed setup)
    (taken : step communicator serialization s e = some s')
    (alone : endsAlone condName s e = true) (still : stillWaits condName r q s e = true)
    (listed : (s.process q).lists condName r = true) :
    (s'.process q).lists condName r = true := by
  cases systemStep wf taken with
  | receive | updateTimestamp =>
    exact (read_update (·.lists condName r) (by rfl) q).trans listed
  | @acts self action consumed process' sent does =>
    by_cases mine : q = self
    · subst mine
      have effect : WaitEffect q condName (s.process q) consumed process' sent :=
        waitEffect (wf q) does
      have after := s.update_own q process' sent
      rw [after]
      have member : r ∈ ((s.process q).waits condName).senders := of_decide_eq_true listed
      apply decide_eq_true
      cases effect with
      | heard _ _ _ kept => exact kept r member
      | @forgot _ packet _ read =>
        cases does with
        | dispatch received =>
          obtain ⟨type, named⟩ := withdraw_iff.1 read
          have ends : (s.process q).endOf condName packet.source = true :=
            endOf_iff.2 ⟨packet, received, type, named, rfl⟩
          have own : r = packet.source := of_decide_eq_true alone _ _ ends listed
          rw [← own] at ends
          have goes := (of_decide_eq_true still).resolve_left (absurd rfl)
          rw [ends] at goes
          cases goes
      | quiet _ _ _ waits | announced _ _ _ _ waits | withdrew _ _ _ _ waits
      | finished _ _ _ _ _ _ _ waits | picked _ _ _ waits | notified _ _ _ waits
      | signalled _ _ waits | confirmed _ _ _ _ waits => rwa [waits]
    · have others : (s.update self (process', sent)).process q = s.process q :=
        s.update_other mine ..
      rwa [others]

theorem lists_run (wf : s.WellFormed setup)
    (later : Execution (step communicator serialization) (· = s)
      (fun _ s e => (endsAlone condName s e && stillWaits condName r q s e) = true) trace s')
    (listed : (s.process q).lists condName r = true) :
    (s'.process q).lists condName r = true := by
  have both : s'.WellFormed setup ∧ (s'.process q).lists condName r = true := by
    refine later.invariant
      (I := fun s => s.WellFormed setup ∧ (s.process q).lists condName r = true) ?_ ?_
    · rintro _ rfl
      exact ⟨wf, listed⟩
    · rintro trace s e s' - ⟨wf, listed⟩ may taken
      obtain ⟨alone, still⟩ := Bool.and_eq_true_iff.1 may
      exact ⟨wf.step (systemStep wf taken), lists_step wf taken alone still listed⟩
  exact both.2

theorem notifyAll_reaches (listed : (s.process q).lists condName r = true)
    (taken : step communicator serialization s (q, .notifyAll condName) = some s') :
    ∃ recipients, (s'.process q).main = .notifying condName recipients ∧ r ∈ recipients := by
  have member : r ∈ ((s.process q).waits condName).senders := of_decide_eq_true listed
  obtain ⟨-, after⟩ := step_call (fun _ => rfl) (by intro source; simp) taken
  rw [after]
  simp only [Process.notifyAll]
  split_ifs with empty'
  · have nobody : (s.process q).waits condName = .empty := by
      have absent : (s.process q).conditionalWaits = ∅ := AList.ext empty'
      rw [Process.waits, absent, AList.lookup_empty]
      rfl
    rw [nobody] at member
    cases member
  · exact ⟨_, rfl, List.mem_toFinset.2 member⟩

theorem notifying_reaches (wf : s.WellFormed setup) {recipients : Finset (ProcessId n)}
    (main : (s.process q).main = .notifying condName recipients)
    (taken : step communicator serialization s e = some s') :
    (s'.process q).main = .notifying condName recipients ∨ e = (q, .sendNotify) ∧
      ∀ r ∈ recipients, ∃ raw ∈ s'.pending q r, raw.carries .condNotify condName = true := by
  cases systemStep wf taken with
  | receive | updateTimestamp => exact .inl ((read_update (·.main) (by rfl) q).trans main)
  | @acts self action consumed process' sent does =>
    by_cases mine : q = self
    · subst mine
      have after := s.update_own q process' sent
      rw [after]
      cases does with
      | main does =>
        have pending := pending_main does
        cases does with
        | sendNotify here =>
          cases main.symm.trans here
          refine .inr ⟨rfl, fun r member => ?_⟩
          refine ⟨⟨(s.process q).currentLamportTime + 1, .condNotify, condName⟩, ?_,
            RawPacket.carries_iff.2 ⟨rfl, rfl⟩⟩
          rw [pending]
          exact List.mem_append_right _ (mem_sentFrom.2 ⟨rfl, member, rfl⟩)
        | configured _ here | notify _ here => cases main.symm.trans here
        | assign here | lock here | unlock here | wait here | leave here | queue here
        | acquired here | answerDeferred here | released here | announce here | stop here
        | retry here | wake here | subscribeConfirmations here | announceEnd here
        | waitReturns here | sendSync here | unlockMonitor here => cases main.symm.trans here
      | dispatch received free dispatches does =>
        left
        cases does with
        | early _ here | counted _ here => cases main.symm.trans here
        | notified =>
          change (s.process q).main.signal _ = _
          rw [main]
          rfl
        | confirmed =>
          change (s.process q).main.confirm _ _ = _
          rw [main]
          rfl
        | _ => exact main
    · have others : (s.update self (process', sent)).process q = s.process q :=
        s.update_other mine ..
      exact .inl (by rw [others, main])

/-- The end of a wait takes its process out of the list, and nobody else, just when nobody
else is listed. While that is so at every end, a listed process stays listed until its own
wait ends, and a notification of all reaches it. -/
theorem ends_one (run : Run .simple serialization setup contract trace s) (condName : CondName) :
    (∀ p q s', (s.process q).endOf condName p = true →
      step .simple serialization s (q, .dispatch) = some s' →
      (EndsOne condName p (s.process q) (s'.process q) ↔
        ∀ r, (s.process q).lists condName r = true → r = p)) ∧
    (∀ q r later s', Execution (step .simple serialization) (· = s)
        (fun _ s e => (endsAlone condName s e && stillWaits condName r q s e) = true) later s' →
      (s.process q).lists condName r = true →
      (s'.process q).lists condName r = true ∧
      ∀ s₁, step .simple serialization s' (q, .notifyAll condName) = some s₁ →
        ∃ recipients, (s₁.process q).main = .notifying condName recipients ∧ r ∈ recipients) ∧
    ∀ q recipients e s', (s.process q).main = .notifying condName recipients →
      step .simple serialization s e = some s' →
      (s'.process q).main = .notifying condName recipients ∨ e = (q, .sendNotify) ∧
        ∀ r ∈ recipients, ∃ raw ∈ s'.pending q r, raw.carries .condNotify condName = true := by
  have wf := wellFormed_run run
  refine ⟨fun p q s' ends taken => endsOne_iff run ends taken,
    fun q r later s' continued listed => ?_,
    fun q recipients e s' main taken => notifying_reaches wf main taken⟩
  have still := lists_run wf continued listed
  exact ⟨still, fun s₁ taken => notifyAll_reaches still taken⟩

theorem ends_one_two : ∃ trace s s', Run .simple unary (shared 2) (Obeying acquiresOnce) trace s ∧
    (s.process 1).lists news 0 = true ∧ step .simple unary s (1, .dispatch) = some s' ∧
    EndsOne news 0 (s.process 1) (s'.process 1) := by
  obtain ⟨trace, s, run, reached⟩ := exists_run .simple unary (shared 2) (Obeying acquiresOnce)
    [[(0, .lock board.1), (0, .queue)], deliver 0 1, deliver 1 0, [(0, .acquired),
      (0, .wait news board.1 (· == 0)), (0, .announce)], deliver 0 1, [(0, .evaluate),
      (0, .subscribeConfirmations), (0, .announceEnd), (1, .receive 0)]].flatten
    (fun _ s => (s.process 1).endOf news 0 ∧ (s.process 1).lists news 0 ∧
      (∀ r, (s.process 1).lists news r = true → r = 0) ∧
      (step .simple unary s (1, .dispatch)).isSome)
    (by decide +kernel)
  obtain ⟨ends, listed, alone, taken⟩ := of_decide_eq_true reached
  obtain ⟨s', taken⟩ := Option.isSome_iff_exists.1 taken
  exact ⟨trace, s, s', run, listed, taken, ((ends_one run news).1 0 1 s' ends taken).2 alone⟩

/-- Two processes wait, and the end of the second wait makes a third forget the first. -/
theorem forgotten_three : ¬∀ trace s, Run .simple unary (shared 3) (Obeying acquiresOnce) trace s →
    ∀ p q s', (s.process q).endOf news p = true → step .simple unary s (q, .dispatch) = some s' →
      EndsOne news p (s.process q) (s'.process q) := by
  intro one
  obtain ⟨trace, s, run, reached⟩ := exists_run .simple unary (shared 3) (Obeying acquiresOnce)
    [[(0, .lock board.1), (0, .queue)], deliver 0 1, deliver 0 2, deliver 1 0, deliver 2 0,
      [(0, .acquired), (0, .wait news board.1 (· == 1)), (0, .announce)], deliver 0 1, deliver 0 2,
      [(0, .evaluate), (0, .released), (1, .lock board.1), (1, .queue)], deliver 1 0, deliver 1 2,
      deliver 0 1, deliver 2 1, [(1, .acquired), (1, .wait news board.1 (· == 0)), (1, .announce)],
      deliver 1 2, [(1, .evaluate), (1, .subscribeConfirmations), (1, .announceEnd),
      (2, .receive 1)]].flatten
    (fun _ s => (s.process 2).endOf news 1 ∧ (s.process 2).lists news 0 ∧
      (step .simple unary s (2, .dispatch)).any fun s' => (s'.process 2).lists news 0 = false)
    (by decide +kernel)
  obtain ⟨ends, listed, forgets⟩ := of_decide_eq_true reached
  obtain ⟨s', taken, forgets⟩ := (Option.any_eq_true ..).1 forgets
  have kept := (one trace s run 1 2 s' ends taken).kept 0 (by decide) listed
  rw [of_decide_eq_true forgets] at kept
  cases kept

end DistributedMonitor
