import DistributedMonitor.MutualExclusion

/-! Requests and agreements are conserved: while a process waits inside `acquireMutex`
its request is at exactly one place for each other process, and otherwise nowhere. A request that
a release in progress has answered has left `receivedRequests`, although the set is cleared only
at the end of the release. -/

namespace DistributedMonitor
open Library TicketExclusion

variable {n : ℕ} {σ : Type} {communicator : Communicator} {serialization : Serialization σ}
  {setup : Setup n σ} {contract : Permission (System n σ) (Event n σ)}
  {trace : Trace (System n σ) (Event n σ)} {s : System n σ} {mutexName : MutexName}
  {process process' : Process n σ} {self : ProcessId n} {packet : Packet n}

theorem awaiting_of_collecting (own : process.Owning)
    (collects : process.main.collecting? = some mutexName) :
    ∃ time, process.phase mutexName = .awaiting time := by
  have main := own.main
  cases here : process.main with
  | collecting name id received caller =>
    rw [here] at main collects
    cases collects
    obtain ⟨time, queued⟩ := Option.isSome_iff_exists.1 main
    refine ⟨time, ?_⟩
    rw [phase_queued queued, here]
    exact if_pos rfl
  | _ =>
    rw [here] at collects
    cases collects

theorem collecting_of_awaiting {time : LamportTime}
    (awaiting : process.phase mutexName = .awaiting time) :
    ∃ id received caller, process.main = .collecting mutexName id received caller := by
  have queued : process.queuedMutexes mutexName = some time := phase_time (by rw [awaiting]; rfl)
  rw [phase_queued queued] at awaiting
  cases here : process.main with
  | collecting name id received caller =>
    rw [here] at awaiting
    simp only [MainThread.phase] at awaiting
    split_ifs at awaiting with same
    exact ⟨id, received, caller, by rw [same]⟩
  | releasing name unanswered caller =>
    rw [here] at awaiting
    simp only [MainThread.phase] at awaiting
    split_ifs at awaiting
  | _ =>
    rw [here] at awaiting
    cases awaiting

theorem agreements_nodup (coherent : process.main.Coherent) (mutexName : MutexName) :
    (process.main.agreements mutexName).Nodup := by
  cases here : process.main with
  | queueing name id received caller | collecting name id received caller =>
    rw [here] at coherent
    simp only [MainThread.agreements]
    split_ifs
    · exact PacketSet.senders_nodup coherent.1
    · exact List.nodup_nil
  | _ => exact List.nodup_nil

/-- The places where the request of one process to another, or its answer, is. -/
def System.places (s : System n σ) (mutexName : MutexName) (p q : ProcessId n) : ℕ :=
  s.requests mutexName p q + ((s.process q).deferred mutexName).senders.count p +
    s.agreements mutexName q p + ((s.process p).main.agreements mutexName).count q

theorem places_of_waiting (run : Run communicator serialization setup contract trace s)
    {p q : ProcessId n} (different : p ≠ q)
    (waits : (s.process p).main.collecting? = some mutexName) : s.places mutexName p q = 1 := by
  obtain ⟨a, inv, sim, -⟩ := simulated_unordered run mutexName
  obtain ⟨time, awaiting⟩ := awaiting_of_collecting (owning_run run p) waits
  have present := inv.awaiting_token p q time ((sim.phase p).trans awaiting) (Ne.symm different)
  have deferred : ((s.process q).deferred mutexName).senders.count p =
      if a.token p q = .deferred then 1 else 0 := by
    rw [(PacketSet.senders_nodup (deferred_about (wellFormed_run run q) mutexName)).count]
    simp only [sim.deferred]
  have counted : ((s.process p).main.agreements mutexName).count q =
      if a.token p q = .counted then 1 else 0 := by
    rw [(agreements_nodup (wellFormed_run run p).coherent mutexName).count]
    simp only [sim.counted]
  rw [System.places, deferred, counted, sim.requested, sim.agreed]
  cases place : a.token p q with
  | absent => exact absurd place present
  | _ => simp

theorem places_of_not_waiting (run : Run communicator serialization setup contract trace s)
    {p q : ProcessId n} (settled : (s.process p).main.collecting? ≠ some mutexName) :
    s.requests mutexName p q = 0 ∧
      p ∉ ((s.process q).deferred mutexName).senders ∧ s.agreements mutexName q p = 0 := by
  obtain ⟨a, inv, sim, -⟩ := simulated_unordered run mutexName
  have absent : a.token p q = .absent := by
    refine absent_of_unawaiting inv (fun time awaiting => settled ?_) q
    rw [sim.phase] at awaiting
    obtain ⟨id, received, caller, main⟩ := collecting_of_awaiting awaiting
    rw [main]
    rfl
  rw [sim.requested, sim.agreed, sim.deferred, absent]
  simp

def usesOnly (used : Finset MutexName) (_ : System n σ) (e : Event n σ) : Bool :=
  match e.2 with
  | .lock mutexName | .wait _ mutexName _ => mutexName ∈ used
  | .unregisterMutex mutexName => mutexName ∉ used
  | _ => true

structure Process.Uses (used : Finset MutexName) (process : Process n σ) : Prop where
  registered : ∀ mutexName ∈ used, mutexName ∈ process.registeredMutexes
  acquires : ∀ mutexName, process.main.acquiring = some mutexName → mutexName ∈ used
  waits : ∀ call, process.main.waitCall = some call → call.mutex ∈ used

theorem waitCall_reads : ReadsCaller (MainThread.waitCall : MainThread n σ → _) Caller.waitCall := {}

theorem waitCall_step {monitors : List MonitorName} {action : Action n σ}
    {consumed : Option (Packet n)} {sent : List (Envelope n)}
    (does : ThreadStep serialization self monitors process action consumed process' sent)
    {call : WaitCall σ} (waiting : process'.main.waitCall = some call) :
    process.main.waitCall = some call ∨ action = .wait call.condName call.mutex call.predicate := by
  cases does with
  | main does =>
    cases does with
    | configured | assign => exact .inl waiting
    | unlock here | retry here | unlockMonitor here =>
      rw [waitCall_reads.unlock] at waiting
      exact .inl (by rw [here]; exact waiting)
    | wait here owned =>
      cases waiting
      exact .inr rfl
    | notify called here same picked =>
      rcases picked with rfl | ⟨recipients, rfl, -⟩
      · exact .inl waiting
      · cases waiting
    | acquired here =>
      rw [waitCall_reads.afterLock] at waiting
      exact .inl (by rw [here]; exact waiting)
    | released here =>
      rw [waitCall_reads.afterUnlock] at waiting
      exact .inl (by rw [here]; exact waiting)
    | lock | leave | waitReturns | sendNotify | sendSync => cases waiting
    | queue here | answerDeferred here | announce here | stop here | wake here
    | subscribeConfirmations here | announceEnd here => exact .inl (by rw [here]; exact waiting)
  | dispatch received free dispatches does =>
    cases does with
    | early type here | counted type here => exact .inl (by rw [here]; exact waiting)
    | notified => exact .inl (waitCall_reads.signal _ _ ▸ waiting)
    | confirmed => exact .inl (waitCall_reads.confirm _ _ _ ▸ waiting)
    | _ => exact .inl waiting

theorem Process.Uses.moved {used : Finset MutexName} (uses : process.Uses used)
    (registered : process.registeredMutexes ⊆ process'.registeredMutexes)
    (acquires : process'.main.acquiring = none ∨
      process'.main.acquiring = process.main.acquiring)
    (waits : ∀ call, process'.main.waitCall = some call → process.main.waitCall = some call) :
    process'.Uses used where
  registered mutexName member := registered (uses.registered mutexName member)
  acquires mutexName acquiring := by
    rcases acquires with nobody | same
    · rw [nobody] at acquiring
      cases acquiring
    · exact uses.acquires mutexName (same ▸ acquiring)
  waits call waiting := uses.waits call (waits call waiting)

theorem Process.Uses.unlock {used : Finset MutexName} (uses : process.Uses used) {name : MutexName}
    {caller : Caller σ} (waits : caller.waitCall = process.main.waitCall) :
    (process.unlock name caller).Uses used :=
  uses.moved (unlock_registered process name caller ▸ Finset.Subset.refl _)
    (.inl (acquiring_reads.unlock process name caller))
    (fun _ waiting => waits ▸ waitCall_reads.unlock process name caller ▸ waiting)

theorem uses_run {used : Finset MutexName}
    (registered : ∀ q, used ⊆ (setup.process q).registeredMutexes)
    (run : Run communicator serialization setup (Obeying (usesOnly used)) trace s)
    (p : ProcessId n) : (s.process p).Uses used := by
  refine process_run run ?_ ?_ ?_ p
  · exact fun p => ⟨registered p, nofun, nofun⟩
  · exact fun process clock receiving uses => ⟨uses.registered, uses.acquires, uses.waits⟩
  · intro trace s self action consumed process' sent run may uses does
    cases does with
    | main does =>
      cases does with
      | configured called main kept =>
        refine ⟨fun mutexName member => kept mutexName (uses.registered mutexName member) ?_,
          uses.acquires, uses.waits⟩
        rintro rfl
        exact of_decide_eq_true may member
      | assign => exact uses.moved (Finset.Subset.refl _) (.inr rfl) (fun call waiting => waiting)
      | lock here =>
        have listed : _ ∈ used := of_decide_eq_true may
        exact ⟨uses.registered, fun name acquires => Option.some.inj acquires ▸ listed, nofun⟩
      | unlock here | retry here | unlockMonitor here => exact uses.unlock (by rw [here]; rfl)
      | wait here owned =>
        have listed : _ ∈ used := of_decide_eq_true may
        exact ⟨uses.registered, nofun, fun call waiting => Option.some.inj waiting ▸ listed⟩
      | notify called here same picked =>
        rcases picked with rfl | ⟨recipients, rfl, -⟩
        · exact uses.moved (Finset.Subset.refl _) (.inr rfl) (fun call waiting => waiting)
        · exact uses.moved (Finset.Subset.refl _) (.inl rfl) nofun
      | queue here =>
        exact uses.moved (Finset.Subset.refl _) (.inr (by rw [here]; rfl))
          (fun call waiting => by rw [here]; exact waiting)
      | @acquired name id received caller here =>
        exact uses.moved (Finset.Subset.refl _) (.inl (elsewhere_afterLock caller).acquiring)
          (fun call waiting => by rw [here]; exact (waitCall_reads.afterLock caller).symm.trans waiting)
      | @released name unanswered caller here =>
        exact uses.moved (Finset.Subset.refl _) (.inl (elsewhere_afterUnlock caller).acquiring)
          (fun call waiting => by rw [here]; exact (waitCall_reads.afterUnlock caller).symm.trans waiting)
      | wake here =>
        have waits := uses.waits
        rw [here] at waits
        exact ⟨uses.registered, fun name acquires => Option.some.inj acquires ▸ waits _ rfl, waits⟩
      | answerDeferred here | announce here | stop here | subscribeConfirmations here
      | announceEnd here =>
        exact uses.moved (Finset.Subset.refl _) (.inl rfl)
          (fun call waiting => by rw [here]; exact waiting)
      | leave here | waitReturns here | sendNotify here | sendSync here =>
        exact uses.moved (Finset.Subset.refl _) (.inl rfl) nofun
    | dispatch received free dispatches does =>
      cases does with
      | early type here | counted type here =>
        exact uses.moved (Finset.Subset.refl _) (.inr (by rw [here]; rfl))
          (fun call waiting => by rw [here]; exact waiting)
      | notified =>
        exact uses.moved (Finset.Subset.refl _) (.inr (acquiring_reads.signal _ _))
          (fun call waiting => (waitCall_reads.signal _ _).symm.trans waiting)
      | confirmed =>
        exact uses.moved (Finset.Subset.refl _) (.inr (acquiring_reads.confirm _ _ _))
          (fun call waiting => (waitCall_reads.confirm _ _ _).symm.trans waiting)
      | _ => exact uses.moved (Finset.Subset.refl _) (.inr rfl) (fun call waiting => waiting)

theorem dispatch_accepts {used : Finset MutexName}
    (registered : ∀ q, used ⊆ (setup.process q).registeredMutexes)
    (run : Run communicator serialization setup (Obeying (usesOnly used)) trace s)
    (received : (s.process self).receiving = .received packet)
    (type : packet.messageType = .mutexRequest ∨ packet.messageType = .mutexAgreement) :
    ∃ outcome, (s.process self).dispatch serialization self packet = .ok outcome := by
  have wf := wellFormed_run run self
  obtain ⟨a, inv, sim, -⟩ := simulated_unordered run packet.message
  have member : packet.raw ∈ s.pending packet.source self := received_pending received
  rw [dispatch_eq wf (by rcases type with type | type <;> simp [type])]
  rcases type with type | type
  · have requested := sim.token_requested member (RawPacket.carries_iff.2 ⟨type, rfl⟩)
    obtain ⟨-, time, awaiting⟩ := inv.token_awaiting _ _ (by rw [requested]; decide)
    rw [sim.phase] at awaiting
    obtain ⟨id, agreements, caller, main⟩ := collecting_of_awaiting awaiting
    have listed := (uses_run registered run packet.source).acquires packet.message
      (by rw [main]; rfl)
    have known := (uses_run registered run self).registered packet.message listed
    simp only [type, Process.listener, Subscription.deliver, Subscription.accepts, known,
      Subscription.callback, decide_true, and_self]
    exact ⟨_, rfl⟩
  · have agreed := sim.token_agreed member (RawPacket.carries_iff.2 ⟨type, rfl⟩)
    obtain ⟨-, time, awaiting⟩ := inv.token_awaiting _ _ (by rw [agreed]; decide)
    rw [sim.phase] at awaiting
    obtain ⟨id, agreements, caller, main⟩ := collecting_of_awaiting awaiting
    have queued : (s.process self).queuedMutexes packet.message = some time :=
      phase_time (by rw [awaiting]; rfl)
    simp only [type, Process.listener, main, MainThread.acquiring, Option.map_some,
      Subscription.deliver, Subscription.accepts, Subscription.callback, Process.receiveAgreement,
      Process.addAgreement, queued, MainThread.collect, decide_true, and_self, if_true]
    exact ⟨_, rfl⟩

/-- Until a release is over the request that it has answered is still in the set, and its agreement
is on the way. -/
theorem answered_still_received : ∃ trace s, Run .simple unary (plain 2)
      (Obeying fun s e => usesOnly {gate} s e && acquiresOnce s e) trace s ∧
    (s.process 1).main.collecting? = some gate ∧
    1 ∈ ((s.process 0).receivedRequests gate).senders ∧ s.agreements gate 0 1 = 1 := by
  obtain ⟨trace, s, run, reached⟩ := exists_run .simple unary (plain 2)
    (Obeying fun s e => usesOnly {gate} s e && acquiresOnce s e)
    [[(0, .lock gate), (0, .queue), (1, .lock gate), (1, .queue)], deliver 1 0, deliver 0 1,
      deliver 1 0, [(0, .acquired), (0, .unlock gate),
      (0, .answerDeferred ⟨1, 1, .mutexRequest, gate⟩)]].flatten
    (fun _ s => (s.process 1).main.collecting? = some gate ∧
      1 ∈ ((s.process 0).receivedRequests gate).senders ∧ s.agreements gate 0 1 = 1)
    (by decide +kernel)
  exact ⟨trace, s, run, of_decide_eq_true reached⟩

theorem conservation {used : Finset MutexName}
    (registered : ∀ q, used ⊆ (setup.process q).registeredMutexes)
    (run : Run .simple serialization setup (Obeying (usesOnly used)) trace s) :
    (∀ mutexName p q, p ≠ q →
      ((s.process p).main.collecting? = some mutexName → s.places mutexName p q = 1) ∧
      ((s.process p).main.collecting? ≠ some mutexName → s.requests mutexName p q = 0 ∧
        p ∉ ((s.process q).deferred mutexName).senders ∧
        s.agreements mutexName q p = 0)) ∧
    ∀ self packet, (s.process self).receiving = .received packet →
      packet.messageType = .mutexRequest ∨ packet.messageType = .mutexAgreement →
      ∃ outcome, (s.process self).dispatch serialization self packet = .ok outcome :=
  ⟨fun _ _ _ different => ⟨places_of_waiting run different, places_of_not_waiting run⟩,
    fun _ _ received type => dispatch_accepts registered run received type⟩

theorem conservation_two : ∃ trace s,
    Run .simple unary (plain 2) (Obeying (usesOnly {gate})) trace s ∧
      (s.process 1).main.collecting? = some gate ∧ s.places gate 1 0 = 1 := by
  obtain ⟨trace, s, run, waits⟩ := exists_run .simple unary (plain 2) (Obeying (usesOnly {gate}))
    [[(0, .lock gate), (0, .queue), (1, .lock gate), (1, .queue)], deliver 1 0].flatten
    (fun _ s => (s.process 1).main.collecting? = some gate) (by decide +kernel)
  have waits := of_decide_eq_true waits
  have registered : ∀ q, {gate} ⊆ ((plain 2).process q).registeredMutexes := by decide
  exact ⟨trace, s, run, waits, ((conservation registered run).1 gate 1 0 (by decide)).1 waits⟩

end DistributedMonitor
