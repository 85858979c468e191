import DistributedMonitor.Delivery
import DistributedMonitor.Entry

/-! Entries that wait. A wait gives the mutex away without an update, so the next process to
get it finds the state of the release before, and that is the state given away only where the
wait has left it as it found it. -/

namespace DistributedMonitor
open Library TicketExclusion

variable {n : ℕ} {σ : Type} {communicator : Communicator} {serialization : Serialization σ}
  {setup : Setup n σ} {contract : Permission (System n σ) (Event n σ)}
  {trace : Trace (System n σ) (Event n σ)} {s s' : System n σ} {e : Event n σ}
  {self p q : ProcessId n} {monitors : List MonitorName} {process process' : Process n σ}
  {action : Action n σ} {consumed : Option (Packet n)} {sent : List (Envelope n)}
  {monitor : MonitorName} {initial state : σ}

def releasesMonitor (monitor : MonitorName) (s : System n σ) (e : Event n σ) : Bool :=
  match e.2, (s.process e.1).main with
  | .unlockMonitor, .synced other => other = monitor
  | _, _ => blocksIn monitor s e

def releasedWith (monitor : MonitorName) (s : System n σ) (e : Event n σ) : Option σ :=
  if releasesMonitor monitor s e then some ((s.process e.1).state monitor.1) else none

def lastReleased (monitor : MonitorName) (initial : σ) (trace : Trace (System n σ) (Event n σ)) : σ :=
  (recorded (releasedWith monitor) trace).headD initial

def obtainedWith (monitor : MonitorName) (p : ProcessId n) (s : System n σ) (e : Event n σ) :
    Option σ :=
  match e.2 with
  | .acquired =>
      if e.1 = p ∧ (s.process p).main.collecting? = some monitor.1 then
        some ((s.process p).state monitor.1)
      else none
  | _ => none

def obtained (monitor : MonitorName) (initial : σ) (p : ProcessId n)
    (trace : Trace (System n σ) (Event n σ)) : σ :=
  (recorded (obtainedWith monitor p) trace).headD initial

/-- A wait blocks only with the state with which its process got the mutex. -/
def BlocksUnchanged (monitor : MonitorName) (initial : σ) (trace : Trace (System n σ) (Event n σ))
    (s : System n σ) (e : Event n σ) : Prop :=
  blocksIn monitor s e = true →
    (s.process e.1).state monitor.1 = obtained monitor initial e.1 trace

instance [DecidableEq σ] : Decidable (BlocksUnchanged monitor initial trace s e) :=
  inferInstanceAs (Decidable (_ → _))

/-- No update packs an empty state behind a name of 255 bytes, whose length is read as -1. -/
def syncsReadable (monitor : MonitorName) (s : System n σ) (e : Event n σ) : Bool :=
  match e.2, (s.process e.1).receiving with
  | .dispatch, .received packet => packet.messageType ≠ .sync ∨
      ¬(monitor.1.length = 255 ∧ packet.message.length = 256)
  | _, _ => true

/-- Whoever gets the mutex finds the state with which it was last released. -/
def CoherentAcquisition (serialization : Serialization σ) (monitor : MonitorName) (initial : σ)
    (trace : Trace (System n σ) (Event n σ)) (s : System n σ) : Prop :=
  ∀ p s', (s.process p).main.collecting? = some monitor.1 →
    step .simple serialization s (p, .acquired) = some s' →
    (s'.process p).state monitor.1 = lastReleased monitor initial trace

/-- A holder got the state of the last update, and so did the last release leave it. -/
structure Retained (monitor : MonitorName) (initial : σ)
    (trace : Trace (System n σ) (Event n σ)) (s : System n σ) : Prop where
  kept : ∀ p, (s.process p).Editing monitor →
    UpToDate monitor initial trace p (obtained monitor initial p trace)
  released : (∀ p, (s.process p).main ≠ .synced monitor) →
    lastReleased monitor initial trace = latestUpdate monitor initial trace

theorem editing_step
    (does : ThreadStep serialization self monitors process action consumed process' sent)
    (editing : process'.Editing monitor) : process.Editing monitor ∨
      action = .acquired ∧ process.main.collecting? = some monitor.1 := by
  obtain ⟨holds, unsynced⟩ := editing
  obtain ⟨owned, unreleased⟩ := holds_iff.1 holds
  have before : process.owned monitor.1 = true → process.main.releasing? ≠ some monitor.1 →
      process.main ≠ .synced monitor → process.Editing monitor ∨
        action = .acquired ∧ process.main.collecting? = some monitor.1 :=
    fun owned unreleased unsynced => .inl ⟨holds_iff.2 ⟨owned, unreleased⟩, unsynced⟩
  cases does with
  | main does =>
    cases does with
    | configured | assign => exact before owned unreleased unsynced
    | answerDeferred here => exact before owned (by rw [here]; exact unreleased) (by simp [here])
    | unlock here | retry here =>
      rw [unlock_owned] at owned
      exact before owned (by simp [here, MainThread.releasing?]) (by simp [here])
    | @unlockMonitor other here =>
      refine before (unlock_owned process .. ▸ owned) (by simp [here, MainThread.releasing?]) ?_
      rw [here]
      rintro same
      cases same
      rw [unlock_owned] at owned
      apply unreleased
      rw [Process.unlock, Process.isOwned, if_pos owned]
      rfl
    | acquired here =>
      change Function.update process.owned _ true monitor.1 = true at owned
      by_cases same : monitor.1 = ‹MutexName›
      · exact .inr ⟨rfl, by rw [here, same]; rfl⟩
      · rw [Function.update_of_ne same] at owned
        exact before owned (by simp [here, MainThread.releasing?]) (by simp [here])
    | released here =>
      change Function.update process.owned _ false monitor.1 = true at owned
      by_cases same : monitor.1 = ‹MutexName›
      · rw [same, Function.update_self] at owned
        cases owned
      · rw [Function.update_of_ne same] at owned
        refine before owned ?_ (by simp [here])
        rw [here]
        exact fun releasing => same (Option.some.inj releasing).symm
    | notify _ here same picked =>
      refine before ?_ (by simp [here, MainThread.releasing?]) (by simp [here])
      rcases picked with rfl | ⟨recipients, rfl, -⟩ <;> exact owned
    | lock here | wait here | queue here | announce here | stop here | wake here
    | subscribeConfirmations here | announceEnd here | waitReturns here | sendNotify here
    | leave here | sendSync here =>
      exact before owned (by simp [here, MainThread.releasing?]) (by simp [here])
  | dispatch received free dispatches does =>
    cases does with
    | early type here | counted type here =>
      exact before owned (by simp [here, MainThread.releasing?]) (by simp [here])
    | notified =>
      rw [releasing_signal] at unreleased
      rw [unsynced_signal] at unsynced
      exact before owned unreleased unsynced
    | confirmed =>
      rw [releasing_confirm] at unreleased
      rw [unsynced_confirm] at unsynced
      exact before owned unreleased unsynced
    | _ => exact before owned unreleased unsynced

theorem synced_step
    (does : ThreadStep serialization self monitors process action consumed process' sent)
    (synced : process.main = .synced monitor) (stays : action ≠ .unlockMonitor) :
    process'.main = .synced monitor := by
  cases does with
  | main does =>
    cases does with
    | configured | assign => exact synced
    | unlockMonitor => exact absurd rfl stays
    | unlock here | retry here | acquired here | released here | notify _ here | lock here
    | wait here | queue here | answerDeferred here | announce here | stop here | wake here
    | subscribeConfirmations here | announceEnd here | waitReturns here | sendNotify here
    | leave here | sendSync here =>
      rw [synced] at here
      cases here
  | dispatch received free dispatches does =>
    cases does with
    | early type here | counted type here =>
      rw [synced] at here
      cases here
    | notified => exact congrArg (MainThread.signal _) synced
    | confirmed => exact congrArg (MainThread.confirm _ _) synced
    | _ => exact synced

theorem UpToDate.kept (current : UpToDate monitor initial trace p state)
    (unmoved : front monitor p ((s, e) :: trace) = front monitor p trace) :
    UpToDate monitor initial ((s, e) :: trace) p state := by
  unfold UpToDate
  rw [unmoved]
  refine current.imp_left fun member => ?_
  obtain ⟨entry, listed, read⟩ := mem_recorded.1 member
  exact mem_recorded.2 ⟨entry, List.mem_cons_of_mem _ listed, read⟩

theorem obtained_none (nothing : obtainedWith monitor p s e = none) :
    obtained monitor initial p ((s, e) :: trace) = obtained monitor initial p trace := by
  rw [obtained, recorded_none nothing]
  rfl

theorem obtainedWith_other (other : e.1 ≠ p) : obtainedWith monitor p s e = none := by
  unfold obtainedWith
  split
  · exact if_neg fun both => other both.1
  · rfl

theorem obtainedWith_none (other : e.2 ≠ .acquired ∨
    (s.process p).main.collecting? ≠ some monitor.1) : obtainedWith monitor p s e = none := by
  unfold obtainedWith
  split
  next acquires => exact if_neg fun both => other.elim (· acquires) (· both.2)
  next => rfl

section
variable (entries : ∀ trace s (e : Event n σ), contract trace s e →
  entriesThatWait monitor s e = true)
include entries

theorem editing_front (rep : Replicated serialization monitor initial trace s)
    (run : Run .simple serialization setup contract trace s)
    (does : ThreadStep serialization self monitors (s.process self) action consumed process' sent)
    (before : (s.process self).Editing monitor) (editing : process'.Editing monitor) :
    front monitor self ((s, (self, action)) :: trace) = front monitor self trace := by
  have enters := entries_enter entries
  have unread : ∀ packet, consumed = some packet → packet.messageType ≠ .sync := by
    rintro packet rfl type
    cases does with
    | dispatch received =>
      have member := received_pending received
      obtain ⟨state, -, message⟩ := rep.carried _ _ _ member type
      exact no_sync_to_holder enters run before.1 _ _ member ⟨type, _, message⟩
  refine front_quiet ?_ (dispatchedSync_none does unread) self
  by_cases sends : action = .sendSync
  · subst sends
    cases does with
    | main does =>
      cases does with
      | configured called => cases called
      | notify called => rcases called with called | called <;> cases called
      | @sendSync other data main =>
        have leaving : (s.process self).main.leaving? = some other := by rw [main]; rfl
        exact absurd (congrArg _ (leaving_here entries run leaving)) editing.2
  · exact broadcast_none sends

theorem Retained.kept_step (ret : Retained monitor initial trace s)
    (rep : Replicated serialization monitor initial trace s)
    (run : Run .simple serialization setup contract trace s)
    (taken : step .simple serialization s e = some s') (editing : (s'.process p).Editing monitor) :
    UpToDate monitor initial ((s, e) :: trace) p (obtained monitor initial p ((s, e) :: trace)) := by
  have enters := entries_enter entries
  have others : ∀ (process' : Process n σ), p ≠ e.1 →
      (Function.update s.process e.1 process' p).Editing monitor →
      UpToDate monitor initial ((s, e) :: trace) p
        (obtained monitor initial p ((s, e) :: trace)) := by
    intro process' other editing
    rw [Function.update_of_ne other] at editing
    rw [obtained_none (obtainedWith_other other.symm)]
    exact (ret.kept p editing).kept (front_other other.symm)
  by_cases mine : p = e.1
  · subst mine
    cases systemStep (wellFormed_run run) taken with
    | receive listening head =>
      rw [obtained_none (obtainedWith_none (.inl (by simp)))]
      change (Function.update s.process _ _ _).Editing monitor at editing
      rw [Function.update_self] at editing
      exact (ret.kept _ editing).kept (front_quiet rfl rfl _)
    | updateTimestamp updating => exact absurd updating (not_updating run _ _)
    | @acts self action consumed process' sent does =>
      change (Function.update s.process _ _ _).Editing monitor at editing
      rw [Function.update_self] at editing
      have unowned : (s.process self).main.collecting? = some monitor.1 →
          ¬(s.process self).Editing monitor := by
        rintro collects ⟨holds, -⟩
        have owned := (holds_iff.1 holds).1
        rw [acquiring_unowned (enters_once enters) run self (acquiring_of_collecting collects)] at owned
        cases owned
      rcases editing_step does editing with before | ⟨rfl, collects⟩
      · have elsewhere : (s.process self).main.collecting? ≠ some monitor.1 :=
          fun collects => unowned collects before
        rw [obtained_none (obtainedWith_none (.inr elsewhere))]
        exact (ret.kept _ before).kept (editing_front entries rep run does before editing)
      · have got : obtainedWith monitor self s (self, .acquired) =
            some ((s.process self).state monitor.1) := if_pos ⟨rfl, collects⟩
        rw [obtained, recorded_some got]
        exact UpToDate.kept (rep.value self (unowned collects)) (front_quiet rfl rfl _)
  · cases systemStep (wellFormed_run run) taken with
    | receive => exact others _ mine editing
    | updateTimestamp => exact others _ mine editing
    | acts => exact others _ mine editing

theorem releasing_silent (run : Run .simple serialization setup contract trace s)
    (releases : releasesMonitor monitor s e = true) :
    (s.process e.1).holds monitor.1 = true := by
  have enters := entries_enter entries
  unfold releasesMonitor at releases
  split at releases
  next other unlocks main =>
    obtain rfl : other = monitor := of_decide_eq_true releases
    exact holder_of_leaving run enters (by rw [main]; rfl)
  next =>
    unfold blocksIn at releases
    split at releases
    next call evaluates main =>
      obtain ⟨mutex, -⟩ := Bool.and_eq_true_iff.1 releases
      have owned := (owning_run run e.1).main
      rw [main] at owned
      exact holds_iff.2 ⟨of_decide_eq_true mutex ▸ owned, by rw [main]; exact nofun⟩
    next => cases releases

theorem Retained.released_with (ret : Retained monitor initial trace s)
    (rep : Replicated serialization monitor initial trace s)
    (run : Run .simple serialization setup contract trace s)
    (unchanged : BlocksUnchanged monitor initial trace s e)
    (releases : releasesMonitor monitor s e = true) :
    (s.process e.1).state monitor.1 = latestUpdate monitor initial trace := by
  have enters := entries_enter entries
  have holds := releasing_silent entries run releases
  refine rep.latest ?_ (no_sync_to_holder enters run holds)
  by_cases editing : (s.process e.1).Editing monitor
  · have blocks : blocksIn monitor s e = true := by
      unfold releasesMonitor at releases
      split at releases
      next other unlocks main =>
        obtain rfl : other = monitor := of_decide_eq_true releases
        exact absurd main editing.2
      next => exact releases
    rw [unchanged blocks]
    exact ret.kept e.1 editing
  · exact rep.value e.1 editing

theorem Retained.released_step (ret : Retained monitor initial trace s)
    (rep : Replicated serialization monitor initial trace s)
    (run : Run .simple serialization setup contract trace s)
    (unchanged : BlocksUnchanged monitor initial trace s e)
    (taken : step .simple serialization s e = some s')
    (unsynced : ∀ p, (s'.process p).main ≠ .synced monitor) :
    lastReleased monitor initial ((s, e) :: trace) = latestUpdate monitor initial ((s, e) :: trace) := by
  have silent : broadcast monitor s e = none := by
    unfold broadcast
    split
    next other data sends main =>
      obtain ⟨self, action⟩ := e
      simp only at sends main
      subst sends
      obtain ⟨outcome, acts, rfl⟩ := step_act (by intro source; simp) taken
      simp only [Process.act, Process.sendSync, main] at acts
      cases acts
      have leaving : (s.process self).main.leaving? = some other := by rw [main]; rfl
      refine absurd ?_ (unsynced self)
      change (Function.update s.process self _ self).main = _
      rw [Function.update_self, leaving_here entries run leaving]
    next => rfl
  have updated : latestUpdate monitor initial ((s, e) :: trace) =
      latestUpdate monitor initial trace := by
    unfold latestUpdate updates
    rw [recorded_none silent]
  rw [updated]
  by_cases releases : releasesMonitor monitor s e = true
  · have shows : releasedWith monitor s e = some ((s.process e.1).state monitor.1) := if_pos releases
    rw [lastReleased, recorded_some shows]
    exact ret.released_with entries rep run unchanged releases
  · have nothing : releasedWith monitor s e = none := if_neg releases
    rw [lastReleased, recorded_none nothing]
    refine ret.released fun p synced => unsynced p ?_
    cases systemStep (wellFormed_run run) taken with
    | receive =>
      exact (read_update (fun process => process.main) (by rfl) p).trans synced
    | updateTimestamp updating => exact absurd updating (not_updating run _ _)
    | @acts self action consumed process' sent does =>
      by_cases mine : p = self
      · subst mine
        change (Function.update s.process _ _ _).main = _
        rw [Function.update_self]
        apply synced_step does synced
        rintro rfl
        apply releases
        simp only [releasesMonitor, synced, decide_true]
      · exact (congrArg Process.main (Function.update_of_ne mine ..)).trans synced

theorem retained_run (shares : ∀ p, setup.monitors p = [monitor])
    (alike : ∀ p, setup.state p monitor.1 = initial)
    (restores : ∀ old state,
      serialization.restoreState monitor old (serialization.saveState monitor state) = state)
    (orders : ∀ trace s (e : Event n σ), Run .simple serialization setup contract trace s →
      contract trace s e → syncsInOrder monitor trace s e = true)
    (unchanged : ∀ trace s (e : Event n σ), contract trace s e →
      BlocksUnchanged monitor initial trace s e)
    (run : Run .simple serialization setup contract trace s) :
    Replicated serialization monitor initial trace s ∧ Retained monitor initial trace s := by
  apply run.history_invariant (I := fun trace s =>
    Replicated serialization monitor initial trace s ∧ Retained monitor initial trace s)
  · rintro _ rfl
    refine ⟨replicated_start alike, ?_, fun _ => rfl⟩
    rintro p ⟨holds, -⟩
    cases holds
  · intro trace s e s' run ⟨rep, ret⟩ may taken
    refine ⟨rep.step entries run shares restores may (orders trace s e run may) ?_ taken,
      fun p editing => ret.kept_step entries rep run taken editing,
      ret.released_step entries rep run (unchanged trace s e may) taken⟩
    intro blocks
    have releases : releasesMonitor monitor s e = true := by
      unfold releasesMonitor
      split
      next other unlocks main =>
        simp only [blocksIn, unlocks, Bool.false_eq_true] at blocks
      next => exact blocks
    by_cases editing : (s.process e.1).Editing monitor
    · rw [unchanged trace s e may blocks]
      exact ret.kept e.1 editing
    · exact rep.value e.1 editing

end

theorem sync_other (run : Run .simple serialization setup contract trace s) {raw : RawPacket}
    (member : raw ∈ sentTo serialization p q trace) (type : raw.messageType = .sync) : q ≠ p := by
  revert member
  apply run.history_invariant (I := fun trace _ => raw ∈ sentTo serialization p q trace → q ≠ p)
  · rintro _ rfl member
    cases member
  · intro trace s e s' run before may taken member
    rcases List.mem_append.1 member with old | new
    · exact before old
    · cases systemStep (wellFormed_run run) taken with
      | receive =>
        rw [sentBy_receive] at new
        cases new
      | updateTimestamp updating => exact absurd updating (not_updating run _ _)
      | acts does =>
        rw [sentBy_acts does taken, sentFrom] at new
        split_ifs at new with mine
        · exact mine ▸ (sync_sent does new type).1
        · cases new

theorem mem_syncStamps {stamp : LamportTime} (member : stamp ∈ syncStamps q trace) :
    ∃ p, ∃ raw ∈ dispatchedAt p q trace, raw.messageType = .sync ∧ raw.lamportTime = stamp := by
  obtain ⟨entry, listed, read⟩ := mem_recorded.1 member
  unfold ofProcess at read
  split_ifs at read with mine
  unfold dispatchedSync at read
  split at read
  next packet dispatches received =>
    split_ifs at read with type
    cases read
    subst mine
    refine ⟨packet.source, packet.raw, mem_chronicle.2 ⟨entry, listed, ?_⟩, type, rfl⟩
    simp only [dispatchedBy, dispatches, received, and_self, if_true, List.mem_singleton]
  next => cases read

theorem only_other : ∀ {p q r : ProcessId 2}, r ≠ p → r ≠ q → p = q := by
  decide

/-- The updates of the only other process arrive in the order of their stamps. -/
theorem syncsInOrder_two {setup : Setup 2 σ} {trace : Trace (System 2 σ) (Event 2 σ)}
    {s : System 2 σ} {e : Event 2 σ} {contract : Permission (System 2 σ) (Event 2 σ)}
    (run : Run .simple serialization setup contract trace s)
    (readable : syncsReadable monitor s e = true) : syncsInOrder monitor trace s e = true := by
  cases acts : e.2 with
  | dispatch =>
    cases received : (s.process e.1).receiving with
    | received packet =>
      simp only [syncsReadable, acts, received] at readable
      simp only [syncsInOrder, acts, received]
      rcases of_decide_eq_true readable with other | readable
      · exact decide_eq_true (.inl other)
      · refine decide_eq_true (or_iff_not_imp_left.2 fun sync => ⟨fun stamp member => ?_, readable⟩)
        have type : packet.raw.messageType = .sync := not_not.1 sync
        obtain ⟨p, raw, dispatched, type', rfl⟩ := mem_syncStamps member
        have history := fifo run p e.1
        have other : e.1 ≠ p := sync_other run (history ▸ List.mem_append_left _ dispatched) type'
        have pending := received_pending received
        have other' : e.1 ≠ packet.source :=
          sync_other run (fifo run packet.source e.1 ▸ List.mem_append_right _ pending) type
        obtain rfl := only_other other' other
        have sorted := (sentTo_sorted run packet.source e.1).1
        rw [← history] at sorted
        exact (List.pairwise_append.1 sorted).2.2 raw dispatched packet.raw pending
    | _ => simp only [syncsInOrder, acts, received]
  | _ => simp only [syncsInOrder, acts]

/-- Entries that wait, but block only with the state they got, and whose updates can be read. -/
def blockingUnchanged (monitor : MonitorName) (initial : σ) :
    Permission (System n σ) (Event n σ) := fun trace s e =>
  entriesThatWait monitor s e = true ∧ BlocksUnchanged monitor initial trace s e ∧
    syncsReadable monitor s e = true

instance [DecidableEq σ] : Decidable (blockingUnchanged monitor initial trace s e) :=
  inferInstanceAs (Decidable (_ ∧ _))

/-- Two processes hand the state of a monitor over with its mutex, on entry and on waking inside
a wait, as long as no wait blocks with a state that has been changed since it got the mutex. -/
theorem coherent_acquisition {setup : Setup 2 σ} {trace : Trace (System 2 σ) (Event 2 σ)}
    {s : System 2 σ} (shares : ∀ p, setup.monitors p = [monitor])
    (alike : ∀ p, setup.state p monitor.1 = initial)
    (restores : ∀ old state,
      serialization.restoreState monitor old (serialization.saveState monitor state) = state)
    (run : Run .simple serialization setup (blockingUnchanged monitor initial) trace s) :
    CoherentAcquisition serialization monitor initial trace s := by
  have entries : ∀ trace s (e : Event 2 σ), blockingUnchanged monitor initial trace s e →
      entriesThatWait monitor s e = true := fun _ _ _ may => may.1
  obtain ⟨rep, ret⟩ := retained_run entries shares alike restores
    (fun trace s e run may => syncsInOrder_two run may.2.2) (fun trace s e may => may.2.1) run
  intro p s' collects taken
  refine acquired_with run collects taken fun id received caller main complete => ?_
  obtain ⟨nobody, state⟩ := latest_acquired entries rep run main complete
  rw [state, ret.released]
  intro q synced
  have leaving := nobody q
  rw [synced] at leaving
  cases leaving

theorem coherent_acquisition_two : ∃ trace s,
    Run .simple unary (shared 2) (blockingUnchanged board 0) trace s ∧
      (s.process 0).main.waitCall.isSome ∧ lastReleased board 0 trace = 5 ∧
      ∃ s', step .simple unary s (0, .acquired) = some s' ∧ (s'.process 0).state board.1 = 5 := by
  obtain ⟨trace, s, run, reached⟩ := exists_run .simple unary (shared 2) (blockingUnchanged board 0)
    [[(0, .lock board.1), (0, .queue)], deliver 0 1, deliver 1 0, [(0, .acquired),
      (0, .wait news board.1 (· == 5)), (0, .announce)], deliver 0 1, [(0, .evaluate),
      (0, .released), (1, .lock board.1), (1, .queue)], deliver 1 0, deliver 0 1, [(1, .acquired),
      (1, .assign board.1 5), (1, .leave board), (1, .sendSync), (1, .unlockMonitor),
      (1, .released), (0, .wake), (0, .queue)], deliver 0 1, deliver 1 0, deliver 1 0].flatten
    (fun trace s => (s.process 0).main.waitCall.isSome ∧ lastReleased board 0 trace = 5 ∧
      (s.process 0).main.collecting? = some board.1 ∧
      (step .simple unary s (0, .acquired)).isSome)
    (by decide +kernel)
  obtain ⟨waits, released, collects, taken⟩ := of_decide_eq_true reached
  obtain ⟨s', taken⟩ := Option.isSome_iff_exists.1 taken
  have found := coherent_acquisition (by decide) (fun p => rfl)
    (fun old state => List.length_replicate) run 0 s' collects taken
  exact ⟨trace, s, run, waits, released, s', taken, found.trans released⟩

/-- A process changes the state and then blocks in a wait, and the other enters without having
heard of the change. -/
theorem incoherent_acquisition_two : ¬∀ trace s, Run .simple unary (shared 2)
    (Obeying (entriesThatWait board)) trace s → CoherentAcquisition unary board 0 trace s := by
  intro coherent
  obtain ⟨trace, s, run, reached⟩ := exists_run .simple unary (shared 2)
    (Obeying (entriesThatWait board))
    [[(0, .lock board.1), (0, .queue)], deliver 0 1, deliver 1 0, [(0, .acquired),
      (0, .assign board.1 5), (0, .wait news board.1 (· == 7)), (0, .announce)], deliver 0 1,
      [(0, .evaluate), (0, .released), (1, .lock board.1), (1, .queue)], deliver 1 0,
      deliver 0 1].flatten
    (fun trace s => (s.process 1).main.collecting? = some board.1 ∧ lastReleased board 0 trace = 5 ∧
      (step .simple unary s (1, .acquired)).any fun s' => (s'.process 1).state board.1 = 0)
    (by decide +kernel)
  obtain ⟨collects, released, finds⟩ := of_decide_eq_true reached
  obtain ⟨s', taken, finds⟩ := (Option.any_eq_true ..).1 finds
  have found := coherent trace s run 1 s' collects taken
  rw [released, of_decide_eq_true finds] at found
  cases found

end DistributedMonitor
