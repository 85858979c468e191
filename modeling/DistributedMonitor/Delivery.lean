import DistributedMonitor.Guard
import DistributedMonitor.Progress

/-! What a process has sent to another and what of it has been dispatched. Channels keep
order, so the dispatched packets come first, and a release of a mutex stands between what
was sent before it and the agreements that follow. -/

namespace DistributedMonitor
open Library TicketExclusion

variable {n : ℕ} {σ : Type} {communicator : Communicator} {serialization : Serialization σ}
  {setup : Setup n σ} {contract : Permission (System n σ) (Event n σ)}
  {trace : Trace (System n σ) (Event n σ)} {s s' : System n σ} {e : Event n σ}
  {mutexName : MutexName} {self p q : ProcessId n} {monitors : List MonitorName}
  {process process' : Process n σ} {action : Action n σ} {consumed : Option (Packet n)}
  {sent : List (Envelope n)} {packet : Packet n} {raw : RawPacket}

def sentBy (serialization : Serialization σ) (p q : ProcessId n) (s : System n σ) (e : Event n σ) :
    List RawPacket :=
  if e.1 = p then
    ((s.process p).act serialization p e.2).elim [] fun outcome => addressed outcome.2 q
  else []

def dispatchedBy (p q : ProcessId n) (s : System n σ) (e : Event n σ) : List RawPacket :=
  match e.2, (s.process e.1).receiving with
  | .dispatch, .received packet => if q = e.1 ∧ packet.source = p then [packet.raw] else []
  | _, _ => []

/-- All packets from one process to another, by either thread, in the order of the sends. -/
def sentTo (serialization : Serialization σ) (p q : ProcessId n)
    (trace : Trace (System n σ) (Event n σ)) : List RawPacket :=
  chronicle (sentBy serialization p q) trace

def dispatchedAt (p q : ProcessId n) (trace : Trace (System n σ) (Event n σ)) : List RawPacket :=
  chronicle (dispatchedBy p q) trace

theorem threadStep_not_receive
    (does : ThreadStep serialization self monitors process action consumed process' sent)
    (source : ProcessId n) : action ≠ .receive source := by
  cases does with
  | main does =>
    cases does with
    | configured called =>
      rintro rfl
      cases called
    | notify called => rcases called with rfl | rfl <;> exact nofun
    | _ => exact nofun
  | dispatch => exact nofun

theorem mainStep_not_dispatch
    (does : MainStep serialization self process action process' sent) : action ≠ .dispatch := by
  cases does with
  | configured called =>
    rintro rfl
    cases called
  | notify called => rcases called with rfl | rfl <;> exact nofun
  | _ => exact nofun

theorem sentBy_acts
    (does : ThreadStep serialization self monitors (s.process self) action consumed process' sent)
    (taken : step communicator serialization s (self, action) =
      some (s.update self (process', sent))) (p q : ProcessId n) :
    sentBy serialization p q s (self, action) = sentFrom self p q sent := by
  obtain ⟨outcome, acts, same⟩ := step_act (threadStep_not_receive does) taken
  unfold sentBy sentFrom
  by_cases mine : self = p
  · subst mine
    have channels := congrArg (System.channel · self q) same
    simp only [System.update, if_true, List.append_cancel_left_eq] at channels
    rw [if_pos rfl, if_pos rfl, acts]
    exact channels.symm
  · rw [if_neg mine, if_neg (Ne.symm mine)]

theorem dispatchedBy_acts
    (does : ThreadStep serialization self monitors (s.process self) action consumed process' sent)
    (p q : ProcessId n) :
    dispatchedBy p q s (self, action) = dispatchedFrom self p q consumed := by
  cases does with
  | main does =>
    have elsewhere := mainStep_not_dispatch does
    rw [dispatchedFrom_none]
    cases action with
    | dispatch => exact absurd rfl elsewhere
    | _ => rfl
  | dispatch received =>
    simp only [dispatchedBy, received, dispatchedFrom, inboxFrom]
    by_cases mine : q = self <;> simp [mine]

theorem sentBy_receive (source : ProcessId n) :
    sentBy serialization p q s (self, .receive source) = [] := by
  unfold sentBy
  split_ifs <;> rfl

theorem fifo (run : Run .simple serialization setup contract trace s) (p q : ProcessId n) :
    dispatchedAt p q trace ++ s.pending p q = sentTo serialization p q trace := by
  apply run.history_invariant (I := fun trace s =>
    dispatchedAt p q trace ++ s.pending p q = sentTo serialization p q trace)
  · rintro _ rfl
    rfl
  · intro trace s e s' run before may taken
    cases systemStep (wellFormed_run run) taken with
    | receive listening head =>
      rw [pending_receive listening head]
      change (dispatchedAt p q trace ++ []) ++ _ = sentTo serialization p q trace ++ sentBy ..
      rw [sentBy_receive, List.append_nil, List.append_nil, before]
    | updateTimestamp updating => exact absurd updating (not_updating run _ _)
    | acts does =>
      obtain ⟨rest, pending, pending'⟩ := pending_acts does p q
      change (dispatchedAt p q trace ++ dispatchedBy ..) ++ _ =
        sentTo serialization p q trace ++ sentBy ..
      rw [sentBy_acts does taken, dispatchedBy_acts does, pending', ← before, pending]
      simp only [List.append_assoc]

theorem dispatched_isPrefix (run : Run .simple serialization setup contract trace s)
    (p q : ProcessId n) : dispatchedAt p q trace <+: sentTo serialization p q trace :=
  ⟨_, fifo run p q⟩

theorem clock_step (wf : s.WellFormed setup)
    (taken : step communicator serialization s e = some s') (p : ProcessId n) :
    (s.process p).currentLamportTime ≤ (s'.process p).currentLamportTime := by
  have updated : ∀ (self : ProcessId n) (process' : Process n σ),
      (s.process self).currentLamportTime ≤ process'.currentLamportTime →
      (s.process p).currentLamportTime ≤
        (Function.update s.process self process' p).currentLamportTime := by
    intro self process' later
    by_cases mine : p = self
    · subst mine
      rwa [Function.update_self]
    · rw [Function.update_of_ne mine]
  cases systemStep wf taken with
  | receive => exact updated _ _ (Nat.le_succ_of_le (le_max_right ..))
  | updateTimestamp => exact updated _ _ le_rfl
  | acts does => exact updated _ _ (threadStep_clock does)

theorem addressed_stamp
    (does : ThreadStep serialization self monitors process action consumed process' sent)
    (q : ProcessId n) : addressed sent q = [] ∨ ∃ raw, addressed sent q = [raw] ∧
      raw.lamportTime = process.currentLamportTime + 1 ∧
      process'.currentLamportTime = process.currentLamportTime + 1 := by
  have one : ∀ (packet : Packet n) (recipients : Finset (ProcessId n)),
      addressed [⟨packet, recipients⟩] q = [] ∨ addressed [⟨packet, recipients⟩] q = [packet.raw] := by
    intro packet recipients
    rw [addressed_singleton]
    exact (ite_eq_or_eq ..).symm
  cases does with
  | main does =>
    cases does with
    | queue | answerDeferred | announce | announceEnd | sendNotify | sendSync =>
      exact (one _ _).imp_right fun single => ⟨_, single, rfl, rfl⟩
    | _ => exact .inl rfl
  | dispatch received free dispatches does =>
    cases does with
    | agreed | ended => exact (one _ _).imp_right fun single => ⟨_, single, rfl, rfl⟩
    | _ => exact .inl rfl

theorem sentTo_sorted (run : Run .simple serialization setup contract trace s) (p q : ProcessId n) :
    (sentTo serialization p q trace).Pairwise (fun earlier later =>
      earlier.lamportTime < later.lamportTime) ∧
    ∀ raw ∈ sentTo serialization p q trace, raw.lamportTime ≤ (s.process p).currentLamportTime := by
  apply run.history_invariant (I := fun trace s =>
    (sentTo serialization p q trace).Pairwise (fun earlier later =>
      earlier.lamportTime < later.lamportTime) ∧
    ∀ raw ∈ sentTo serialization p q trace, raw.lamportTime ≤ (s.process p).currentLamportTime)
  · rintro _ rfl
    exact ⟨.nil, nofun⟩
  · intro trace s e s' run ⟨sorted, past⟩ may taken
    have clock := clock_step (wellFormed_run run) taken p
    have nothing : sentBy serialization p q s e = [] →
        sentTo serialization p q ((s, e) :: trace) = sentTo serialization p q trace := by
      intro silent
      rw [sentTo, chronicle, silent, List.append_nil]
      rfl
    have added : sentBy serialization p q s e = [] ∨ ∃ raw, sentBy serialization p q s e = [raw] ∧
        (s.process p).currentLamportTime < raw.lamportTime ∧
        raw.lamportTime = (s'.process p).currentLamportTime := by
      cases systemStep (wellFormed_run run) taken with
      | receive => exact .inl (sentBy_receive _)
      | updateTimestamp updating => exact absurd updating (not_updating run _ _)
      | @acts self action consumed process' sent does =>
        rw [sentBy_acts does taken, sentFrom]
        split_ifs with mine
        · subst mine
          apply (addressed_stamp does q).imp_right
          rintro ⟨raw, single, stamp, later⟩
          change ∃ raw', _ ∧ _ ∧ _ = (Function.update s.process p process' p).currentLamportTime
          rw [Function.update_self]
          exact ⟨raw, single, stamp ▸ Nat.lt_succ_self _, stamp.trans later.symm⟩
        · exact .inl rfl
    rcases added with silent | ⟨raw, single, later, reached⟩
    · rw [nothing silent]
      exact ⟨sorted, fun raw member => (past raw member).trans clock⟩
    · change (sentTo serialization p q trace ++ sentBy serialization p q s e).Pairwise _ ∧
        ∀ raw ∈ sentTo serialization p q trace ++ sentBy serialization p q s e, _
      rw [single]
      refine ⟨List.pairwise_append.2 ⟨sorted, List.pairwise_singleton _ _, ?_⟩, ?_⟩
      · intro earlier old last new
        rw [List.mem_singleton.1 new]
        exact (past earlier old).trans_lt later
      · intro last member
        rcases List.mem_append.1 member with old | new
        · exact (past last old).trans clock
        · rw [List.mem_singleton.1 new, reached]

theorem received_clock (run : Run .simple serialization setup contract trace s)
    (received : (s.process p).receiving = .received packet) :
    packet.lamportTime < (s.process p).currentLamportTime := by
  let past : Process n σ → Prop := fun process => ∀ packet,
    process.receiving = .received packet → packet.lamportTime < process.currentLamportTime
  have always : ∀ p, past (s.process p) := by
    apply run.invariant (I := fun s => ∀ p, past (s.process p))
    · rintro _ rfl p packet received
      cases received
    · intro trace s e s' run before may taken
      cases systemStep (wellFormed_run run) taken with
      | receive listening head =>
        apply forall_update before
        intro packet received
        cases received
        exact Nat.lt_succ_of_le (le_max_left ..)
      | updateTimestamp updating => exact absurd updating (not_updating run _ _)
      | @acts self action consumed process' sent does =>
        apply forall_update before
        intro packet received
        exact (before self packet (threadStep_inbox does received)).trans_le (threadStep_clock does)
  exact always p packet received

theorem dispatched_clock (run : Run .simple serialization setup contract trace s)
    (member : raw ∈ dispatchedAt p q trace) :
    raw.lamportTime < (s.process q).currentLamportTime := by
  revert member
  apply run.history_invariant (I := fun trace s => raw ∈ dispatchedAt p q trace →
    raw.lamportTime < (s.process q).currentLamportTime)
  · rintro _ rfl member
    cases member
  · intro trace s e s' run before may taken member
    rcases List.mem_append.1 member with old | new
    · exact (before old).trans_le (clock_step (wellFormed_run run) taken q)
    · unfold dispatchedBy at new
      split at new
      next packet acts received =>
        split_ifs at new with both
        · obtain ⟨rfl, -⟩ := both
          rw [List.mem_singleton.1 new]
          exact (received_clock run received).trans_le (clock_step (wellFormed_run run) taken e.1)
        · cases new
      next => cases new

end DistributedMonitor
