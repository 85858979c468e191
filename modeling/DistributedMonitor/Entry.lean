import DistributedMonitor.Coherence

/-! What each step does to the copies of a monitor, and what its entries find. -/

namespace DistributedMonitor
open Library TicketExclusion

variable {n : ℕ} {σ : Type} {communicator : Communicator} {serialization : Serialization σ}
  {setup : Setup n σ} {contract : Permission (System n σ) (Event n σ)}
  {trace : Trace (System n σ) (Event n σ)} {s s' : System n σ} {e : Event n σ}
  {self : ProcessId n} {monitors : List MonitorName} {process process' : Process n σ}
  {action : Action n σ} {consumed : Option (Packet n)} {sent : List (Envelope n)}
  {packet : Packet n} {monitor : MonitorName} {initial : σ}

theorem saved_reads : ReadsCaller (MainThread.saved? : MainThread n σ → _) fun _ => none := {}

theorem saved_step
    (does : ThreadStep serialization self monitors process action consumed process' sent)
    (stays : ∀ other, action ≠ .leave other) (keeps : action ≠ .sendSync) :
    process'.main.saved? = process.main.saved? := by
  cases does with
  | main does =>
    cases does with
    | configured | assign => rfl
    | unlock here | retry here | unlockMonitor here => rw [saved_reads.unlock, here]; rfl
    | notify called here same picked =>
      rcases picked with rfl | ⟨recipients, rfl, -⟩
      · rfl
      · rw [here]; rfl
    | leave => exact absurd rfl (stays _)
    | acquired here => rw [here]; exact saved_reads.afterLock _
    | released here => rw [here]; exact saved_reads.afterUnlock _
    | sendSync => exact absurd rfl keeps
    | lock here | wait here | queue here | answerDeferred here | announce here | stop here
    | wake here | subscribeConfirmations here | announceEnd here | waitReturns here
    | sendNotify here => rw [here]; rfl
  | dispatch received free dispatches does =>
    cases does with
    | early type here | counted type here => rw [here]; rfl
    | notified => exact saved_reads.signal _ _
    | confirmed => exact saved_reads.confirm _ _ _
    | _ => rfl

theorem state_step
    (does : ThreadStep serialization self monitors process action consumed process' sent)
    (unread : ∀ packet, consumed = some packet → packet.messageType ≠ .sync) :
    process'.state = process.state ∨ ∃ mutexName state, action = .assign mutexName state ∧
      process.main = .running ∧
      process' = { process with state := Function.update process.state mutexName state } := by
  cases does with
  | main does =>
    cases does with
    | assign here => exact .inr ⟨_, _, rfl, here, rfl⟩
    | unlock | retry | unlockMonitor =>
      unfold Process.unlock
      split_ifs <;> exact .inl rfl
    | _ => exact .inl rfl
  | dispatch received free dispatches does =>
    cases does with
    | synced type => exact absurd type (unread _ rfl)
    | _ => exact .inl rfl

theorem sync_pending
    (does : ThreadStep serialization self monitors (s.process self) action consumed process' sent)
    (unread : ∀ packet, consumed = some packet → packet.messageType ≠ .sync)
    (keeps : action ≠ .sendSync) {p q : ProcessId n} {raw : RawPacket}
    (type : raw.messageType = .sync) :
    raw ∈ (s.update self (process', sent)).pending p q ↔ raw ∈ s.pending p q := by
  obtain ⟨rest, pending, pending'⟩ := pending_acts does p q
  rw [pending, pending', List.mem_append, List.mem_append]
  have undispatched : raw ∉ dispatchedFrom self p q consumed := by
    intro member
    unfold dispatchedFrom at member
    split_ifs at member
    · cases consumed with
      | none => cases member
      | some packet =>
        obtain ⟨-, rfl⟩ := mem_inboxFrom.1 member
        exact unread packet rfl type
    · cases member
  have unsent : raw ∉ sentFrom self p q sent := by
    intro member
    unfold sentFrom at member
    split_ifs at member
    · exact keeps (sync_sent does member type).2.1
    · cases member
  simp [undispatched, unsent]

theorem dispatch_synced {p : ProcessId n}
    (wf : process.WellFormed (setup.permanentSubscriptions p))
    (alone : setup.monitors p = [monitor]) (type : packet.messageType = .sync) {data : ByteString}
    (packed : packet.message = packSyncMessage monitor.1 data)
    (readable : ¬(monitor.1.length = 255 ∧ data = [])) {outcome : Outcome n σ}
    (dispatches : process.dispatch serialization self packet = .ok outcome) :
    outcome = ({ process.restore serialization monitor data with receiving := .listening }, []) := by
  rw [dispatch_sync wf type, alone] at dispatches
  simp only [List.map_cons, List.map_nil, runCallbacks, Subscription.accepts, if_pos type, packed,
    Subscription.callback] at dispatches
  cases accepted : extractMutexName (packSyncMessage monitor.1 data) with
  | none => simp [accepted, bind, Except.bind] at dispatches
  | some name =>
    by_cases own : name = monitor.1
    · cases read : extractSerializedData (packSyncMessage monitor.1 data) with
      | none => simp [accepted, own, read, bind, Except.bind] at dispatches
      | some data' =>
        have exact' : data' = data :=
          (read_own monitor data data' (own ▸ accepted) read).resolve_right readable
        simp [accepted, own, read, exact', bind, Except.bind, pure, Except.pure] at dispatches
        exact dispatches.symm
    · simp [accepted, own, bind, Except.bind] at dispatches

theorem Process.Editing.moved (editing : process.Editing monitor)
    (owned : process.owned monitor.1 = true → process'.owned monitor.1 = true)
    (unreleased : process'.main.releasing? ≠ some monitor.1)
    (unsynced : process'.main ≠ .synced monitor) : process'.Editing monitor :=
  ⟨holds_iff.2 ⟨owned (holds_iff.1 editing.1).1, unreleased⟩, unsynced⟩

theorem editing_unlock {name : MutexName} (elsewhere : name ≠ monitor.1) (caller : Caller σ)
    (editing : process.Editing monitor) : (process.unlock name caller).Editing monitor := by
  refine editing.moved (unlock_owned process name caller ▸ id) ?_ ?_ <;>
    unfold Process.unlock <;> split_ifs
  · exact fun same => elsewhere (Option.some.inj same)
  all_goals cases caller <;> exact nofun

theorem unlock_state (process : Process n σ) (name : MutexName) (caller : Caller σ) :
    (process.unlock name caller).state monitor.1 = process.state monitor.1 := by
  unfold Process.unlock
  split_ifs <;> rfl

theorem blocksIn_waits (blocks : blocksIn monitor s e = true) :
    ∃ call, (s.process e.1).main.waitCall = some call ∧ call.mutex = monitor.1 := by
  unfold blocksIn at blocks
  split at blocks
  next call evaluate main =>
    exact ⟨call, by rw [main]; rfl, of_decide_eq_true (Bool.and_eq_true_iff.1 blocks).1⟩
  next => cases blocks

theorem blocksIn_state (blocks : blocksIn monitor s (self, action) = true)
    (does : ThreadStep serialization self monitors (s.process self) action consumed process' sent) :
    process'.state monitor.1 = (s.process self).state monitor.1 := by
  unfold blocksIn at blocks
  split at blocks
  next call evaluate main =>
    obtain rfl : action = .evaluate := evaluate
    cases does with
    | main does =>
      cases does with
      | configured called => cases called
      | notify called => rcases called with called | called <;> cases called
      | stop => rfl
      | retry => exact unlock_state ..
  next => cases blocks

theorem unsynced_signal (main : MainThread n σ) (condName : CondName) :
    (main.signal condName ≠ .synced monitor) = (main ≠ .synced monitor) :=
  read_signal (· ≠ .synced monitor) (fun _ _ _ => by simp) main condName

theorem unsynced_confirm (main : MainThread n σ) (condName : CondName) :
    (main.confirm condName packet ≠ .synced monitor) = (main ≠ .synced monitor) :=
  read_confirm (· ≠ .synced monitor) (fun _ _ _ _ => by simp) (fun _ _ _ _ => by simp) main condName

theorem editing_dispatched {monitors : List MonitorName}
    (does : Dispatched self packet monitors process process' sent)
    (settled : ¬process'.Editing monitor) : ¬process.Editing monitor := by
  intro editing
  apply settled
  cases does with
  | early type here | counted type here => exact editing.moved id nofun nofun
  | notified =>
    refine editing.moved id ?_ ?_
    · rw [releasing_signal]
      exact (holds_iff.1 editing.1).2
    · rw [unsynced_signal]
      exact editing.2
  | confirmed =>
    refine editing.moved id ?_ ?_
    · rw [releasing_confirm]
      exact (holds_iff.1 editing.1).2
    · rw [unsynced_confirm]
      exact editing.2
  | _ => exact editing

theorem broadcast_none (keeps : action ≠ .sendSync) :
    broadcast monitor s (self, action) = none := by
  cases action with
  | sendSync => exact absurd rfl keeps
  | _ => rfl

theorem leftWith_none (stays : ∀ other, action ≠ .leave other) :
    leftWith monitor s (self, action) = none := by
  cases action with
  | leave other => exact absurd rfl (stays other)
  | _ => rfl

theorem stops_unblocked {call : WaitCall σ} (keeps : blocksIn monitor s (self, .evaluate) = false)
    (main : (s.process self).main = .checking call) (mutex : call.mutex = monitor.1)
    (taken : step communicator serialization s (self, .evaluate) = some s') :
    (s'.process self).main = .stopped call := by
  simp only [blocksIn, main, mutex, decide_true, Bool.true_and, Bool.not_eq_false'] at keeps
  rw [← mutex] at keeps
  simp only [step, Process.act, Process.evaluate, main, keeps, if_true, Option.map_some] at taken
  cases taken
  change (Function.update s.process self _ self).main = _
  rw [Function.update_self]

theorem dispatchedSync_none
    (does : ThreadStep serialization self monitors (s.process self) action consumed process' sent)
    (unread : ∀ packet, consumed = some packet → packet.messageType ≠ .sync) :
    dispatchedSync s (self, action) = none := by
  cases action with
  | dispatch =>
    cases does with
    | main does =>
      cases does with
      | configured called => cases called
      | notify called => rcases called with called | called <;> cases called
    | dispatch received =>
      simp only [dispatchedSync, received, if_neg (unread _ rfl)]
  | _ => rfl

theorem holder_of_leaving (run : Run communicator serialization setup contract trace s)
    (enters : ∀ trace s (e : Event n σ), contract trace s e → entersMonitors s e = true)
    {p : ProcessId n} (leaving : (s.process p).main.leaving? = some monitor) :
    (s.process p).holds monitor.1 = true := by
  refine holds_iff.2 ⟨leaving_owned enters run leaving, ?_⟩
  cases main : (s.process p).main with
  | releasing =>
    rw [main] at leaving
    cases leaving
  | _ => exact nofun

theorem leaving_of_saved {main : MainThread n σ} {left : MonitorName × ByteString}
    (saved : main.saved? = some left) : main.leaving? = some left.1 := by
  cases main with
  | saved other data =>
    cases saved
    rfl
  | _ => cases saved

theorem Replicated.receive (rep : Replicated serialization monitor initial trace s)
    {source : ProcessId n} {raw : RawPacket} {rest : List RawPacket}
    (listening : (s.process self).receiving = .listening)
    (head : s.channel source self = raw :: rest) :
    Replicated serialization monitor initial ((s, (self, .receive source)) :: trace)
      { process := Function.update s.process self ((s.process self).receive .simple source raw)
        channel := fun from' to' =>
          if from' = source ∧ to' = self then rest else s.channel from' to' } := by
  have state : ∀ q, (Function.update s.process self
      ((s.process self).receive .simple source raw) q).state = (s.process q).state :=
    read_update (·.state) (by rfl)
  have saved : ∀ q, (Function.update s.process self
      ((s.process self).receive .simple source raw) q).main.saved? = (s.process q).main.saved? :=
    read_update (fun process => process.main.saved?) (by rfl)
  have editing : ∀ q, (Function.update s.process self
      ((s.process self).receive .simple source raw) q).Editing monitor =
        (s.process q).Editing monitor :=
    read_update (fun process => process.Editing monitor) (by rfl)
  have left : lastLeft monitor initial ((s, (self, .receive source)) :: trace) =
      lastLeft monitor initial trace := by
    unfold lastLeft
    rw [recorded_none rfl]
  refine rep.quiet rfl rfl (fun p q raw type => by rw [pending_receive listening head])
    (fun q settled => ?_) (fun q => ?_) (fun q packet received => ?_)
    (fun q serialized leaving => ?_) (fun nobody => ?_)
  · rw [state]
    exact rep.value q (editing q ▸ settled)
  · exact forall_update
      (P := fun q process => (s.process q).currentLamportTime ≤ process.currentLamportTime)
      (fun q => le_rfl) ((le_max_right ..).trans (Nat.le_succ _)) q
  · refine forall_update (P := fun _ process => ∀ packet, process.receiving = .received packet →
      packet.lamportTime ≤ process.currentLamportTime) rep.inbox ?_ q packet received
    intro packet received
    cases received
    exact (le_max_left ..).trans (Nat.le_succ _)
  · rw [left, state]
    exact rep.saved q serialized (saved q ▸ leaving)
  · rw [left]
    exact rep.last fun q => saved q ▸ nobody q

/-- A holder has seen all updates. -/
theorem Replicated.holder_front (rep : Replicated serialization monitor initial trace s)
    {p : ProcessId n} (silent : ∀ q, ∀ raw ∈ s.pending q p, ¬raw.Is (syncOf monitor))
    {update : LamportTime × σ} (member : update ∈ updates monitor trace) :
    update.1 ≤ front monitor p trace := by
  apply (rep.delivered p update member).resolve_right
  rintro ⟨q, raw, pending, type, -⟩
  obtain ⟨state, -, message⟩ := rep.carried q p raw pending type
  exact silent q raw pending ⟨type, _, message⟩

theorem Replicated.latest (rep : Replicated serialization monitor initial trace s)
    {p : ProcessId n} {state : σ} (value : UpToDate monitor initial trace p state)
    (silent : ∀ q, ∀ raw ∈ s.pending q p, ¬raw.Is (syncOf monitor)) :
    state = latestUpdate monitor initial trace := by
  unfold latestUpdate
  unfold UpToDate at value
  cases all : updates monitor trace with
  | nil =>
    rw [all] at value
    exact (value.resolve_left List.not_mem_nil).2
  | cons newest older =>
    have first : newest ∈ updates monitor trace := all ▸ List.mem_cons_self ..
    have reached := rep.holder_front silent first
    have sorted := rep.sorted
    rw [all] at value sorted
    rcases value with member | ⟨zero, -⟩
    · rcases List.mem_cons.1 member with same | outdated
      · exact congrArg Prod.snd same
      · have less := (List.pairwise_cons.1 sorted).1 _ outdated
        exact absurd reached (Nat.not_le_of_lt less)
    · exact absurd (reached.trans zero.le) (Nat.not_le_of_lt (rep.positive newest first))

theorem updates_sendSync {data : MonitorName × ByteString}
    (saved : (s.process self).main.saved? = some data) :
    updates monitor ((s, (self, .sendSync)) :: trace) =
      ((s.process self).currentLamportTime + 1, (s.process self).state monitor.1) ::
        updates monitor trace ∧
    front monitor self ((s, (self, .sendSync)) :: trace) =
      (s.process self).currentLamportTime + 1 := by
  have sends : broadcast monitor s (self, .sendSync) =
      some ((s.process self).currentLamportTime + 1, (s.process self).state monitor.1) := by
    cases main : (s.process self).main with
    | saved => simp only [broadcast, main]
    | _ =>
      rw [main] at saved
      cases saved
  exact ⟨recorded_some sends, front_self (by rw [sends]; rfl)⟩

theorem Replicated.newest (rep : Replicated serialization monitor initial trace s)
    (silent : ∀ q, ∀ raw ∈ s.pending q self, ¬raw.Is (syncOf monitor))
    (update : LamportTime × σ) (member : update ∈ updates monitor trace) :
    update.1 < (s.process self).currentLamportTime + 1 :=
  Nat.lt_succ_of_le ((rep.holder_front silent member).trans (rep.clock self))

theorem pending_broadcast (does : MainStep serialization self (s.process self) action process'
      [⟨packet, otherProcesses self⟩]) (p q : ProcessId n) (raw : RawPacket) :
    raw ∈ (s.update self (process', [⟨packet, otherProcesses self⟩])).pending p q ↔
      raw ∈ s.pending p q ∨ p = self ∧ q ≠ self ∧ raw = packet.raw := by
  rw [pending_main does, List.mem_append, mem_sentFrom, mem_otherProcesses]

section
variable {update : RawPacket} (pending : ∀ p q raw, raw ∈ s'.pending p q ↔
  raw ∈ s.pending p q ∨ p = self ∧ q ≠ self ∧ raw = update)
include pending

theorem Replicated.carried_sent (rep : Replicated serialization monitor initial trace s) {state : σ}
    (updated : updates monitor ((s, e) :: trace) =
      (update.lamportTime, state) :: updates monitor trace)
    (packed : update.message = packSyncMessage monitor.1 (serialization.saveState monitor state))
    (p q : ProcessId n) (raw : RawPacket) (member : raw ∈ s'.pending p q)
    (type : raw.messageType = .sync) :
    ∃ state, (raw.lamportTime, state) ∈ updates monitor ((s, e) :: trace) ∧
      raw.message = packSyncMessage monitor.1 (serialization.saveState monitor state) := by
  rw [updated]
  rcases (pending p q raw).1 member with old | ⟨-, -, rfl⟩
  · obtain ⟨state, listed, message⟩ := rep.carried p q raw old type
    exact ⟨state, List.mem_cons_of_mem _ listed, message⟩
  · exact ⟨state, List.mem_cons_self .., packed⟩

theorem Replicated.delivered_sent (rep : Replicated serialization monitor initial trace s) {state : σ}
    (silent : ∀ q, ∀ raw ∈ s.pending q self, ¬raw.Is (syncOf monitor))
    (stamp : update.lamportTime = (s.process self).currentLamportTime + 1)
    (updated : updates monitor ((s, (self, action)) :: trace) =
      (update.lamportTime, state) :: updates monitor trace)
    (own : front monitor self ((s, (self, action)) :: trace) = update.lamportTime)
    (type : update.messageType = .sync) (q : ProcessId n) (other : LamportTime × σ)
    (member : other ∈ updates monitor ((s, (self, action)) :: trace)) :
    other.1 ≤ front monitor q ((s, (self, action)) :: trace) ∨
      ∃ p, ∃ raw ∈ s'.pending p q, raw.messageType = .sync ∧ raw.lamportTime = other.1 := by
  rw [updated] at member
  by_cases mine : q = self
  · subst mine
    rw [own]
    rcases List.mem_cons.1 member with rfl | old
    · exact .inl le_rfl
    · exact .inl (stamp ▸ (rep.newest silent other old).le)
  · rcases List.mem_cons.1 member with rfl | old
    · exact .inr ⟨self, update, (pending self q update).2 (.inr ⟨rfl, mine, rfl⟩), type, rfl⟩
    · exact rep.delivered_kept old (front_other (Ne.symm mine)).ge
        fun p raw waits _ => .inl ((pending p q raw).2 (.inl waits))

theorem Replicated.fresh_sent (rep : Replicated serialization monitor initial trace s)
    (silent : ∀ q, ∀ raw ∈ s.pending q self, ¬raw.Is (syncOf monitor))
    (stamp : update.lamportTime = (s.process self).currentLamportTime + 1)
    (p q : ProcessId n) (raw : RawPacket) (member : raw ∈ s'.pending p q)
    (type : raw.messageType = .sync) (time : LamportTime)
    (own : time ∈ ownStamps monitor q ((s, (self, action)) :: trace)) : time < raw.lamportTime := by
  by_cases mine : q = self
  · subst mine
    rcases (pending p q raw).1 member with old | ⟨-, apart, -⟩
    · obtain ⟨state, -, message⟩ := rep.carried p q raw old type
      exact absurd ⟨type, _, message⟩ (silent p raw old)
    · exact absurd rfl apart
  · rw [ownStamps_other (Ne.symm mine)] at own
    rcases (pending p q raw).1 member with old | ⟨-, -, rfl⟩
    · exact rep.fresh p q raw old type time own
    · obtain ⟨state, listed⟩ := own_updated own
      exact stamp ▸ rep.newest silent _ listed

end

theorem front_dispatch (received : (s.process self).receiving = .received packet)
    (type : packet.messageType = .sync) :
    front monitor self ((s, (self, .dispatch)) :: trace) = packet.lamportTime := by
  have shows : dispatchedSync s (self, .dispatch) = some packet.lamportTime := by
    simp only [dispatchedSync, received, if_pos type]
  exact front_self shows

theorem Replicated.behind (rep : Replicated serialization monitor initial trace s)
    (member : packet.raw ∈ s.pending packet.source self) (type : packet.messageType = .sync)
    (ordered : ∀ stamp ∈ syncStamps self trace, stamp < packet.lamportTime) :
    front monitor self trace < packet.lamportTime := by
  rcases front_cases monitor self trace with nothing | own | dispatched
  · obtain ⟨state, listed, -⟩ := rep.carried packet.source self packet.raw member type
    rw [nothing]
    exact rep.positive _ listed
  · exact rep.fresh packet.source self packet.raw member type _ own
  · exact ordered _ dispatched

theorem front_onward {stamp : LamportTime}
    (own : front monitor self ((s, (self, action)) :: trace) = stamp)
    (older : front monitor self trace < stamp) (q : ProcessId n) :
    front monitor q trace ≤ front monitor q ((s, (self, action)) :: trace) := by
  by_cases mine : q = self
  · subst mine
    exact own ▸ older.le
  · exact (front_other (Ne.symm mine)).ge

theorem pending_dispatch (does : ThreadStep serialization self monitors (s.process self) action
      (some packet) process' []) (p q : ProcessId n) :
    s.pending p q = dispatchedFrom self p q (some packet) ++
      (s.update self (process', [])).pending p q := by
  obtain ⟨rest, before, after⟩ := pending_acts does p q
  have nothing : sentFrom self p q ([] : List (Envelope n)) = [] := ite_self _
  rw [before, after, nothing, List.append_nil]

theorem pending_dispatched (does : ThreadStep serialization self monitors (s.process self) action
      (some packet) process' [])
    (own : front monitor self ((s, (self, action)) :: trace) = packet.lamportTime)
    {p q : ProcessId n} {raw : RawPacket} (before : raw ∈ s.pending p q) :
    raw ∈ (s.update self (process', [])).pending p q ∨
      raw.lamportTime ≤ front monitor q ((s, (self, action)) :: trace) := by
  rw [pending_dispatch does, List.mem_append] at before
  rcases before with head | later
  · unfold dispatchedFrom at head
    split_ifs at head with mine
    · subst mine
      obtain ⟨-, rfl⟩ := mem_inboxFrom.1 head
      exact .inr own.ge
    · cases head
  · exact .inl later

theorem ordered_of_syncsInOrder (received : (s.process self).receiving = .received packet)
    (type : packet.messageType = .sync)
    (may : syncsInOrder monitor trace s (self, .dispatch) = true) :
    (∀ stamp ∈ syncStamps self trace, stamp < packet.lamportTime) ∧
      ¬(monitor.1.length = 255 ∧ packet.message.length = 256) := by
  simpa only [syncsInOrder, received, type, ne_eq, not_true_eq_false, false_or,
    decide_eq_true_eq] using may

theorem Replicated.applied (rep : Replicated serialization monitor initial trace s)
    (run : Run .simple serialization setup contract trace s)
    (alone : setup.monitors self = [monitor])
    (restores : ∀ old state,
      serialization.restoreState monitor old (serialization.saveState monitor state) = state)
    (received : (s.process self).receiving = .received packet)
    (type : packet.messageType = .sync)
    (may : syncsInOrder monitor trace s (self, .dispatch) = true)
    (dispatches : (s.process self).dispatch serialization self packet = .ok (process', sent)) :
    sent = [] ∧ process'.main = (s.process self).main ∧ process'.receiving = .listening ∧
      (packet.lamportTime, process'.state monitor.1) ∈ updates monitor trace := by
  obtain ⟨state, listed, message⟩ :=
    rep.carried packet.source self packet.raw (received_pending received) type
  have short := (ordered_of_syncsInOrder received type may).2
  have readable : ¬(monitor.1.length = 255 ∧ serialization.saveState monitor state = []) := by
    rintro ⟨long, nothing⟩
    refine short ⟨long, ?_⟩
    change packet.message = _ at message
    rw [message, nothing, packSyncMessage, List.length_cons, List.append_nil, long]
  obtain ⟨result, rfl⟩ := Prod.mk.inj
    (dispatch_synced (wellFormed_run run self) alone type message readable dispatches)
  have restored : process'.state monitor.1 = state := by
    rw [result]
    exact (Function.update_self ..).trans (restores _ state)
  exact ⟨rfl, by rw [result]; rfl, by rw [result], restored ▸ listed⟩

theorem replicated_start (alike : ∀ p, setup.state p monitor.1 = initial) :
    Replicated serialization monitor initial [] setup.system :=
  ⟨nofun, .nil, nofun, nofun, nofun, fun q _ => .inr ⟨rfl, alike q⟩, fun _ => le_rfl,
    nofun, nofun, fun _ => rfl⟩

section
variable (entries : ∀ trace s (e : Event n σ), contract trace s e →
  entriesThatWait monitor s e = true)
include entries

theorem entries_enter (trace : Trace (System n σ) (Event n σ)) (s : System n σ) (e : Event n σ)
    (may : contract trace s e) : entersMonitors s e = true := by
  have rule := entries trace s e may
  unfold entriesThatWait at rule
  unfold entersMonitors
  split at rule <;> simp_all

theorem leaving_here (run : Run communicator serialization setup contract trace s)
    {p : ProcessId n} {other : MonitorName} (leaving : (s.process p).main.leaving? = some other) :
    other = monitor := by
  refine process_run (P := fun process => ∀ other, process.main.leaving? = some other →
    other = monitor) run ?_ ?_ ?_ p other leaving
  · exact fun p other leaving => nomatch leaving
  · exact fun process clock receiving before => before
  · intro trace s self action consumed process' sent run may before does other leaving
    obtain ⟨-, rfl | already⟩ := leaving_step does leaving
    · exact (of_decide_eq_true (entries trace s _ may)).1
    · exact before other already

/-- No step but the broadcast and the blocking of a wait ends an edit, and outside an edit no
step of the main thread touches the state. -/
theorem editing_mainStep (run : Run communicator serialization setup contract trace s)
    (may : contract trace s (self, action))
    (taken : step communicator serialization s (self, action) = some (s.update self (process', sent)))
    (does : MainStep serialization self (s.process self) action process' sent)
    (keeps : action ≠ .sendSync) (unblocked : blocksIn monitor s (self, action) = false)
    (settled : ¬process'.Editing monitor) :
    ¬(s.process self).Editing monitor ∧
      process'.state monitor.1 = (s.process self).state monitor.1 := by
  have rule := entries trace s _ may
  cases does with
  | configured => exact ⟨settled, rfl⟩
  | answerDeferred here =>
    refine ⟨fun editing => settled (editing.moved id ?_ nofun), rfl⟩
    have unreleased := (holds_iff.1 editing.1).2
    rw [here] at unreleased
    exact unreleased
  | @assign mutexName state main =>
    refine ⟨settled, ?_⟩
    rcases of_decide_eq_true rule with elsewhere | owned
    · exact Function.update_of_ne elsewhere.symm ..
    · refine absurd ⟨holds_iff.2 ⟨owned, ?_⟩, ?_⟩ settled
      · change (s.process self).main.releasing? ≠ some monitor.1
        rw [main]
        exact nofun
      · change (s.process self).main ≠ .synced monitor
        rw [main]
        exact nofun
  | unlock =>
    exact ⟨fun editing => settled (editing_unlock (of_decide_eq_true rule) _ editing), unlock_state ..⟩
  | @retry call here =>
    have elsewhere : call.mutex ≠ monitor.1 := by
      intro mutex
      have stopped := stops_unblocked unblocked here mutex taken
      change (Function.update s.process self _ self).main = _ at stopped
      rw [Function.update_self] at stopped
      have ended := ended_reads.unlock (s.process self) call.mutex (.wait call)
      rw [stopped] at ended
      cases ended
    exact ⟨fun editing => settled (editing_unlock elsewhere _ editing), unlock_state ..⟩
  | @unlockMonitor other here =>
    refine ⟨fun editing => editing.2 ?_, unlock_state ..⟩
    have leaving : (s.process self).main.leaving? = some other := by rw [here]; rfl
    rw [here, leaving_here entries run leaving]
  | notify called here same picked =>
    refine ⟨fun editing => settled ?_, rfl⟩
    rcases picked with rfl | ⟨recipients, rfl, -⟩
    · exact editing
    · exact editing.moved id nofun nofun
  | @acquired mutexName id received caller =>
    refine ⟨fun editing => settled (editing.moved (fun owned => ?_) ?_ ?_), rfl⟩
    · change Function.update (s.process self).owned mutexName true monitor.1 = true
      rw [Function.update_apply, owned, ite_self]
    · cases caller <;> exact nofun
    · cases caller <;> exact nofun
  | @released mutexName unanswered caller here =>
    refine ⟨fun editing => settled (editing.moved (fun owned => ?_) ?_ ?_), rfl⟩
    · have elsewhere : monitor.1 ≠ mutexName := by
        rintro same
        exact (holds_iff.1 editing.1).2 (by rw [here, same]; rfl)
      exact (Function.update_of_ne elsewhere ..).trans owned
    · cases caller <;> exact nofun
    · cases caller <;> exact nofun
  | sendSync => exact absurd rfl keeps
  | _ => exact ⟨fun editing => settled (editing.moved id nofun nofun), rfl⟩

theorem Replicated.acts_quiet (rep : Replicated serialization monitor initial trace s)
    (run : Run communicator serialization setup contract trace s)
    (may : contract trace s (self, action))
    (taken : step communicator serialization s (self, action) = some (s.update self (process', sent)))
    (does : ThreadStep serialization self monitors (s.process self) action consumed process' sent)
    (blocking : blocksIn monitor s (self, action) = true →
      UpToDate monitor initial trace self ((s.process self).state monitor.1))
    (stays : ∀ other, action ≠ .leave other) (keeps : action ≠ .sendSync)
    (unread : ∀ packet, consumed = some packet → packet.messageType ≠ .sync) :
    Replicated serialization monitor initial ((s, (self, action)) :: trace)
      (s.update self (process', sent)) := by
  have mine := s.update_own self process' sent
  have others : ∀ q, q ≠ self → (s.update self (process', sent)).process q = s.process q :=
    fun q other => s.update_other other ..
  have settled : ¬process'.Editing monitor →
      UpToDate monitor initial trace self (process'.state monitor.1) := by
    intro settled
    by_cases blocks : blocksIn monitor s (self, action) = true
    · rw [blocksIn_state blocks does]
      exact blocking blocks
    · have before : ¬(s.process self).Editing monitor ∧
          process'.state monitor.1 = (s.process self).state monitor.1 := by
        cases does with
        | main does =>
          exact editing_mainStep entries run may taken does keeps (Bool.eq_false_iff.2 blocks) settled
        | dispatch received free dispatches does =>
          refine ⟨editing_dispatched does settled, ?_⟩
          cases does with
          | synced type => exact absurd type (unread _ rfl)
          | _ => rfl
      rw [before.2]
      exact rep.value self before.1
  have saved : ∀ q, ((s.update self (process', sent)).process q).main.saved? =
      (s.process q).main.saved? :=
    read_update (fun process => process.main.saved?) (saved_step does stays keeps)
  have left : lastLeft monitor initial ((s, (self, action)) :: trace) =
      lastLeft monitor initial trace := by
    unfold lastLeft
    rw [recorded_none (leftWith_none stays)]
  refine rep.quiet (broadcast_none keeps) (dispatchedSync_none does unread)
    (fun p q raw type => sync_pending does unread keeps type) (fun q settled' => ?_) (fun q => ?_)
    (fun q packet received => ?_) (fun q serialized main => ?_) (fun nobody => ?_)
  · by_cases same : q = self
    · subst same
      rw [mine] at settled' ⊢
      exact settled settled'
    · rw [others q same] at settled' ⊢
      exact rep.value q settled'
  · by_cases same : q = self
    · subst same
      rw [mine]
      exact threadStep_clock does
    · rw [others q same]
  · refine rep.inboxes others (fun packet received => ?_) q packet received
    rw [mine] at received ⊢
    exact (rep.inbox self packet (threadStep_inbox does received)).trans (threadStep_clock does)
  · rw [saved] at main
    have state : ((s.update self (process', sent)).process q).state =
        (s.process q).state := by
      by_cases same : q = self
      · subst same
        rw [mine]
        apply (state_step does unread).resolve_right
        rintro ⟨-, -, -, running, -⟩
        rw [running] at main
        cases main
      · rw [others q same]
    rw [state, left]
    exact rep.saved q serialized main
  · rw [left]
    exact rep.last fun q => saved q ▸ nobody q

theorem saved_unique (run : Run .simple serialization setup contract trace s) {p : ProcessId n}
    (holds : (s.process p).holds monitor.1 = true) {q : ProcessId n}
    {left : MonitorName × ByteString} (saved : (s.process q).main.saved? = some left) : q = p := by
  have enters := entries_enter entries
  have leaving := leaving_of_saved saved
  have holds' := holder_of_leaving run enters (leaving_here entries run leaving ▸ leaving)
  obtain ⟨time', first⟩ := holding_of_holds (enters_once enters) run holds'
  obtain ⟨time, second⟩ := holding_of_holds (enters_once enters) run holds
  exact holding_unique run first second

theorem Replicated.leave (rep : Replicated serialization monitor initial trace s)
    (run : Run .simple serialization setup contract trace s) {other : MonitorName}
    (may : contract trace s (self, .leave other)) (main : (s.process self).main = .running) :
    Replicated serialization monitor initial ((s, (self, .leave other)) :: trace)
      (s.update self ((s.process self).leave serialization other, [])) := by
  obtain ⟨rfl, owned⟩ := of_decide_eq_true (entries trace s _ may)
  have does : ThreadStep serialization self [] (s.process self) (.leave other) none
      ((s.process self).leave serialization other) [] := .main (.leave main)
  have holds : (s.process self).holds other.1 = true :=
    holds_iff.2 ⟨owned, by rw [main]; exact nofun⟩
  have mine : (s.update self ((s.process self).leave serialization other, [])).process self =
      (s.process self).leave serialization other := Function.update_self ..
  have others : ∀ q, q ≠ self →
      (s.update self ((s.process self).leave serialization other, [])).process q = s.process q :=
    fun q other => Function.update_of_ne other ..
  have left : leftWith other s (self, .leave other) = some ((s.process self).state other.1) :=
    if_pos rfl
  refine rep.quiet rfl rfl (fun p q raw type => sync_pending does nofun nofun type)
    (fun q settled => ?_) (fun q => ?_) (fun q packet received => ?_) (fun q serialized saved => ?_)
    (fun nobody => ?_)
  · by_cases same : q = self
    · subst same
      rw [mine] at settled
      exact absurd ⟨holds_iff.2 ⟨owned, nofun⟩, nofun⟩ settled
    · rw [others q same] at settled ⊢
      exact rep.value q settled
  · exact (read_update (·.currentLamportTime) (by rfl) q).ge
  · have receiving : ((s.update self ((s.process self).leave serialization other, [])).process
        q).receiving = (s.process q).receiving := read_update (·.receiving) (by rfl) q
    have clock : ((s.update self ((s.process self).leave serialization other, [])).process
        q).currentLamportTime = (s.process q).currentLamportTime :=
      read_update (·.currentLamportTime) (by rfl) q
    rw [receiving] at received
    rw [clock]
    exact rep.inbox q packet received
  · by_cases same : q = self
    · subst same
      rw [mine] at saved ⊢
      cases saved
      refine ⟨rfl, ?_⟩
      unfold lastLeft
      rw [recorded_some left]
      rfl
    · rw [others q same] at saved
      exact absurd (saved_unique entries run holds saved) same
  · have serialized := nobody self
    rw [mine] at serialized
    cases serialized

theorem Replicated.sendSync (rep : Replicated serialization monitor initial trace s)
    (run : Run .simple serialization setup contract trace s)
    (does : MainStep serialization self (s.process self) .sendSync process' sent) :
    Replicated serialization monitor initial ((s, (self, .sendSync)) :: trace)
      (s.update self (process', sent)) := by
  have enters := entries_enter entries
  have mine := s.update_own self process' sent
  have others : ∀ q, q ≠ self → (s.update self (process', sent)).process q = s.process q :=
    fun q other => s.update_other other ..
  cases does with
  | configured called => cases called
  | notify called => rcases called with called | called <;> cases called
  | @sendSync other data main =>
    have saved : (s.process self).main.saved? = some (other, data) := by rw [main]; rfl
    have leaving := leaving_of_saved saved
    obtain rfl := leaving_here entries run leaving
    have holds := holder_of_leaving run enters leaving
    have silent : ∀ q, ∀ raw ∈ s.pending q self, ¬raw.Is (syncOf other) :=
      no_sync_to_holder enters run holds
    obtain ⟨packed, left⟩ := rep.saved self _ saved
    obtain ⟨updated, own⟩ := updates_sendSync saved
    have step : MainStep serialization self (s.process self) .sendSync _ _ := .sendSync main
    have sends := pending_broadcast step
    constructor
    case positive =>
      rw [updated]
      exact List.forall_mem_cons.2 ⟨Nat.succ_pos _, rep.positive⟩
    case sorted =>
      rw [updated]
      exact List.pairwise_cons.2 ⟨rep.newest silent, rep.sorted⟩
    case carried => exact rep.carried_sent sends updated (by rw [← packed]; rfl)
    case delivered => exact rep.delivered_sent sends silent rfl updated own rfl
    case fresh => exact rep.fresh_sent sends silent rfl
    case value =>
      refine rep.values others (updated ▸ List.subset_cons_self ..) fun _ => ?_
      rw [mine]
      unfold UpToDate
      rw [updated, own]
      exact .inl (List.mem_cons_self ..)
    case clock => exact rep.clocks others (by rw [mine, own])
    case inbox =>
      refine rep.inboxes others fun packet received => ?_
      rw [mine] at received ⊢
      exact (rep.inbox self packet received).trans (Nat.le_succ _)
    case saved =>
      intro q serialized saved'
      by_cases same : q = self
      · subst same
        rw [mine] at saved'
        cases saved'
      · rw [others q same] at saved'
        exact absurd (saved_unique entries run holds saved') same
    case last =>
      intro nobody
      rw [updated]
      exact left

theorem Replicated.synced (rep : Replicated serialization monitor initial trace s)
    (run : Run .simple serialization setup contract trace s)
    (alone : setup.monitors self = [monitor])
    (restores : ∀ old state,
      serialization.restoreState monitor old (serialization.saveState monitor state) = state)
    (received : (s.process self).receiving = .received packet)
    (type : packet.messageType = .sync)
    (may : syncsInOrder monitor trace s (self, .dispatch) = true)
    (does : ThreadStep serialization self monitors (s.process self) .dispatch (some packet) process'
      sent)
    (dispatches : (s.process self).dispatch serialization self packet = .ok (process', sent)) :
    Replicated serialization monitor initial ((s, (self, .dispatch)) :: trace)
      (s.update self (process', sent)) := by
  have enters := entries_enter entries
  have member : packet.raw ∈ s.pending packet.source self := received_pending received
  obtain ⟨state, -, message⟩ := rep.carried packet.source self packet.raw member type
  obtain ⟨rfl, still, listening, listed⟩ :=
    rep.applied run alone restores received type may dispatches
  have mine := s.update_own self process' []
  have others : ∀ q, q ≠ self → (s.update self (process', [])).process q = s.process q :=
    fun q other => s.update_other other ..
  have saved : ∀ q, ((s.update self (process', [])).process q).main.saved? =
      (s.process q).main.saved? :=
    read_update (fun process => process.main.saved?) (by rw [still])
  have updated : updates monitor ((s, (self, .dispatch)) :: trace) = updates monitor trace :=
    recorded_none rfl
  have left : lastLeft monitor initial ((s, (self, .dispatch)) :: trace) =
      lastLeft monitor initial trace := by
    unfold lastLeft
    rw [recorded_none rfl]
  have own : front monitor self ((s, (self, .dispatch)) :: trace) = packet.lamportTime :=
    front_dispatch received type
  have older := rep.behind member type (ordered_of_syncsInOrder received type may).1
  have kept : ∀ p q, ∀ raw ∈ (s.update self (process', [])).pending p q, raw ∈ s.pending p q :=
    fun p q raw later => pending_dispatch does p q ▸ List.mem_append_right _ later
  constructor
  case positive =>
    rw [updated]
    exact rep.positive
  case sorted =>
    rw [updated]
    exact rep.sorted
  case carried =>
    rw [updated]
    exact fun p q raw later => rep.carried p q raw (kept p q raw later)
  case delivered =>
    intro q update old
    rw [updated] at old
    exact rep.delivered_kept old (front_onward own older q)
      fun p raw before _ => pending_dispatched does own before
  case fresh =>
    intro p q raw later kind
    rw [ownStamps_unsent rfl]
    exact rep.fresh p q raw (kept p q raw later) kind
  case value =>
    refine rep.values others (updated ▸ List.Subset.refl _) fun _ => ?_
    rw [mine]
    unfold UpToDate
    rw [updated, own]
    exact .inl listed
  case clock =>
    refine rep.clocks others ?_
    rw [mine, own]
    exact (rep.inbox self packet received).trans (threadStep_clock does)
  case inbox =>
    refine rep.inboxes others fun other later => ?_
    rw [mine, listening] at later
    cases later
  case saved =>
    intro q serialized leaving
    rw [saved] at leaving
    by_cases same : q = self
    · subst same
      have here := leaving_of_saved leaving
      have holds := holder_of_leaving run enters (leaving_here entries run here ▸ here)
      exact absurd ⟨type, _, message⟩ (no_sync_to_holder enters run holds _ _ member)
    · rw [left, others q same]
      exact rep.saved q serialized leaving
  case last =>
    intro nobody
    rw [left, updated]
    exact rep.last fun q => saved q ▸ nobody q

theorem Replicated.step (rep : Replicated serialization monitor initial trace s)
    (run : Run .simple serialization setup contract trace s)
    (shares : ∀ p, setup.monitors p = [monitor])
    (restores : ∀ old state,
      serialization.restoreState monitor old (serialization.saveState monitor state) = state)
    (may : contract trace s e) (orders : syncsInOrder monitor trace s e = true)
    (blocking : blocksIn monitor s e = true →
      UpToDate monitor initial trace e.1 ((s.process e.1).state monitor.1))
    (taken : step .simple serialization s e = some s') :
    Replicated serialization monitor initial ((s, e) :: trace) s' := by
  cases systemStep (wellFormed_run run) taken with
  | receive listening head => exact rep.receive listening head
  | updateTimestamp updating => exact absurd updating (not_updating run _ _)
  | @acts self action consumed process' sent does =>
    by_cases leaves : ∃ other, action = .leave other
    · obtain ⟨other, rfl⟩ := leaves
      cases does with
      | main does =>
        cases does with
        | leave main => exact rep.leave entries run may main
        | configured called => cases called
        | notify called => rcases called with called | called <;> cases called
    · by_cases sends : action = .sendSync
      · subst sends
        cases does with
        | main does => exact rep.sendSync entries run does
      · by_cases updates : ∃ packet, consumed = some packet ∧ packet.messageType = .sync
        · obtain ⟨packet, rfl, type⟩ := updates
          cases does with
          | dispatch received free dispatches does =>
            exact rep.synced entries run (shares self) restores received type orders
              (.dispatch received free dispatches does) dispatches
        · exact rep.acts_quiet entries run may taken does blocking
            (fun other same => leaves ⟨other, same⟩) sends
            fun packet same type => updates ⟨packet, same, type⟩

/-- Whoever has all agreements has seen all updates, and nobody is about to send another. -/
theorem latest_acquired (rep : Replicated serialization monitor initial trace s)
    (run : Run .simple serialization setup contract trace s) {p : ProcessId n}
    {id : SubscriptionId} {received : PacketSet n} {caller : Caller σ}
    (main : (s.process p).main = .collecting monitor.1 id received caller)
    (complete : received.size = n - 1) : (∀ q, (s.process q).main.leaving? = none) ∧
    (s.process p).state monitor.1 = latestUpdate monitor initial trace := by
  have enters := entries_enter entries
  have guard : Guarded monitor.1 (syncOf monitor) s := guarded_run run
    fun _ _ _ _ _ _ _ run _ does => sync_from_holder enters run does monitor
  have counted := counted_of_collecting run main complete
  have silent : ∀ q, ∀ raw ∈ s.pending q p, ¬raw.Is (syncOf monitor) := by
    intro q
    by_cases same : q = p
    · subst same
      exact guard.itself q
    · exact guard.counted p q (counted q same)
  have settled : ¬(s.process p).Editing monitor := by
    rintro ⟨holds, -⟩
    have owned := (holds_iff.1 holds).1
    rw [acquiring_unowned (enters_once enters) run p (by rw [main]; rfl)] at owned
    cases owned
  refine ⟨fun q => ?_, rep.latest (rep.value p settled) silent⟩
  by_contra leaves
  obtain ⟨left, leaving⟩ := Option.ne_none_iff_exists'.1 leaves
  obtain rfl := leaving_here entries run leaving
  obtain ⟨time, holding⟩ :=
    holding_of_holds (enters_once enters) run (holder_of_leaving run enters leaving)
  by_cases same : q = p
  · subst same
    rw [main] at leaving
    cases leaving
  · exact (holder_silent run holding (Ne.symm same)).2.1 (counted q same)

end

theorem acquired_with (run : Run communicator serialization setup contract trace s) {p : ProcessId n}
    {value : σ} (collects : (s.process p).main.collecting? = some mutexName)
    (taken : step communicator serialization s (p, .acquired) = some s')
    (found : ∀ id received caller, (s.process p).main = .collecting mutexName id received caller →
      received.size = n - 1 → (s.process p).state mutexName = value) :
    (s'.process p).state mutexName = value := by
  cases systemStep (wellFormed_run run) taken with
  | acts does =>
    cases does with
    | main does =>
      cases does with
      | configured called => cases called
      | notify called => rcases called with called | called <;> cases called
      | acquired main complete =>
        rw [main] at collects
        cases collects
        rw [System.update_own]
        exact found _ _ _ main complete

theorem waits_elsewhere
    (entries : ∀ trace s (e : Event n σ), contract trace s e → entriesOnly monitor s e = true)
    (run : Run communicator serialization setup contract trace s)
    {p : ProcessId n} {call : WaitCall σ} (waits : (s.process p).main.waitCall = some call) :
    call.mutex ≠ monitor.1 := by
  refine process_run (P := fun process => ∀ call, process.main.waitCall = some call →
    call.mutex ≠ monitor.1) run ?_ ?_ ?_ p call waits
  · exact fun p call waits => nomatch waits
  · exact fun process clock receiving before => before
  · intro trace s self action consumed process' sent run may before does call waits
    rcases waitCall_step does waits with already | rfl
    · exact before call already
    · exact of_decide_eq_true (entries trace s _ may)

theorem entries_that_wait (only : entriesOnly monitor s e = true) :
    entriesThatWait monitor s e = true := by
  unfold entriesOnly at only
  unfold entriesThatWait
  split at only <;> simp_all

/-- Every entry finds the state with which the last one was left, as long as all processes
apply the updates in the order of their stamps. -/
theorem coherent_entry (shares : ∀ p, setup.monitors p = [monitor])
    (alike : ∀ p, setup.state p monitor.1 = initial)
    (restores : ∀ old state,
      serialization.restoreState monitor old (serialization.saveState monitor state) = state)
    (run : Run .simple serialization setup
      (fun trace s e => (entriesOnly monitor s e && syncsInOrder monitor trace s e) = true)
      trace s) : CoherentEntry serialization monitor initial trace s := by
  have only : ∀ trace s (e : Event n σ),
      (entriesOnly monitor s e && syncsInOrder monitor trace s e) = true →
      entriesOnly monitor s e = true := fun _ _ _ may => (Bool.and_eq_true_iff.1 may).1
  have entries : ∀ trace s (e : Event n σ),
      (entriesOnly monitor s e && syncsInOrder monitor trace s e) = true →
      entriesThatWait monitor s e = true := fun _ _ _ may => entries_that_wait (only _ _ _ may)
  have rep : Replicated serialization monitor initial trace s := by
    apply run.history_invariant (I := Replicated serialization monitor initial)
    · rintro _ rfl
      exact replicated_start alike
    · intro trace s e s' run rep may taken
      refine rep.step entries run shares restores may (Bool.and_eq_true_iff.1 may).2
        (fun blocks => ?_) taken
      obtain ⟨call, waits, mutex⟩ := blocksIn_waits blocks
      exact absurd mutex (waits_elsewhere only run waits)
  intro p s' collects taken
  refine acquired_with run collects taken fun id received caller main complete => ?_
  obtain ⟨nobody, state⟩ := latest_acquired entries rep run main complete
  rw [state]
  refine (rep.last fun q => ?_).symm
  by_contra saved
  obtain ⟨left, saved⟩ := Option.ne_none_iff_exists'.1 saved
  have leaving := leaving_of_saved saved
  rw [nobody q] at leaving
  cases leaving

theorem coherent_entry_three : ∃ trace s, Run .simple unary (shared 3)
      (fun trace s e => (entriesOnly board s e && syncsInOrder board trace s e) = true) trace s ∧
    lastLeft board 0 trace = 2 ∧ ∃ s', step .simple unary s (2, .acquired) = some s' ∧
      (s'.process 2).state board.1 = 2 := by
  obtain ⟨trace, s, run, reached⟩ := exists_run .simple unary (shared 3)
    (fun trace s e => (entriesOnly board s e && syncsInOrder board trace s e) = true)
    [[(0, .lock board.1), (0, .queue)], deliver 0 1, deliver 0 2, deliver 1 0, deliver 2 0,
      [(0, .acquired), (0, .assign board.1 1), (0, .leave board), (0, .sendSync),
      (0, .unlockMonitor), (0, .released), (1, .lock board.1), (1, .queue)], deliver 1 0,
      deliver 1 2, deliver 0 1, deliver 0 1, deliver 2 1, [(1, .acquired), (1, .assign board.1 2),
      (1, .leave board), (1, .sendSync), (1, .unlockMonitor), (1, .released), (2, .lock board.1),
      (2, .queue)], deliver 1 0, deliver 2 0, deliver 2 1, deliver 0 2, deliver 1 2, deliver 0 2,
      deliver 1 2].flatten
    (fun trace s => (s.process 2).main.collecting? = some board.1 ∧
      lastLeft board 0 trace = 2 ∧ (step .simple unary s (2, .acquired)).isSome)
    (by decide +kernel)
  obtain ⟨collects, left, taken⟩ := of_decide_eq_true reached
  obtain ⟨s', taken⟩ := Option.isSome_iff_exists.1 taken
  have entry := coherent_entry (by decide) (fun p => rfl) (fun old state => List.length_replicate)
    run 2 s' collects taken
  exact ⟨trace, s, run, left, s', taken, entry.trans left⟩

/-- The same, but the update of the first holder is dispatched last. -/
theorem incoherent_entry_three : ¬∀ trace s, Run .simple unary (shared 3)
    (Obeying (entriesOnly board)) trace s → CoherentEntry unary board 0 trace s := by
  intro coherent
  obtain ⟨trace, s, run, reached⟩ := exists_run .simple unary (shared 3)
    (Obeying (entriesOnly board))
    [[(0, .lock board.1), (0, .queue)], deliver 0 1, deliver 0 2, deliver 1 0, deliver 2 0,
      [(0, .acquired), (0, .assign board.1 1), (0, .leave board), (0, .sendSync),
      (0, .unlockMonitor), (0, .released), (1, .lock board.1), (1, .queue)], deliver 1 0,
      deliver 1 2, deliver 0 1, deliver 0 1, deliver 2 1, [(1, .acquired), (1, .assign board.1 2),
      (1, .leave board), (1, .sendSync), (1, .unlockMonitor), (1, .released), (2, .lock board.1),
      (2, .queue)], deliver 1 0, deliver 2 0, deliver 2 1, deliver 1 2, deliver 1 2, deliver 0 2,
      deliver 0 2].flatten
    (fun trace s => (s.process 2).main.collecting? = some board.1 ∧ lastLeft board 0 trace = 2 ∧
      (step .simple unary s (2, .acquired)).any fun s' => (s'.process 2).state board.1 = 1)
    (by decide +kernel)
  obtain ⟨collects, left, finds⟩ := of_decide_eq_true reached
  obtain ⟨s', taken, finds⟩ := (Option.any_eq_true ..).1 finds
  have entry := coherent trace s run 2 s' collects taken
  rw [left, of_decide_eq_true finds] at entry
  cases entry

end DistributedMonitor
