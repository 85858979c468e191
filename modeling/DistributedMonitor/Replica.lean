import DistributedMonitor.Guard

/-! The replicated state of a monitor: while a process holds the mutex of a monitor, no
update of it is on its way, and nothing but the holder changes its state. -/

namespace DistributedMonitor
open Library TicketExclusion

variable {n : ℕ} {σ : Type} {communicator : Communicator} {serialization : Serialization σ}
  {setup : Setup n σ} {contract : Permission (System n σ) (Event n σ)}
  {trace : Trace (System n σ) (Event n σ)} {s s' : System n σ} {e : Event n σ}
  {mutexName : MutexName} {self : ProcessId n} {monitors : List MonitorName}
  {process process' : Process n σ} {action : Action n σ} {consumed : Option (Packet n)}
  {sent : List (Envelope n)} {packet : Packet n}

def syncOf (monitor : MonitorName) : Kind := fun messageType message =>
  messageType = .sync ∧ ∃ serializedState, message = packSyncMessage monitor.1 serializedState

/-- The entries of a monitor are not nested, and only an entry is left. -/
def entersMonitors (s : System n σ) (e : Event n σ) : Bool :=
  match e.2 with
  | .lock mutexName => !(s.process e.1).owned mutexName
  | .leave monitor => (s.process e.1).owned monitor.1
  | _ => true

def MainThread.leaving? : MainThread n σ → Option MonitorName
  | .saved monitor _ | .synced monitor => some monitor
  | _ => none

theorem sync_sent
    (does : ThreadStep serialization self monitors process action consumed process' sent)
    {recipient : ProcessId n} {raw : RawPacket} (member : raw ∈ addressed sent recipient)
    (type : raw.messageType = .sync) :
    recipient ≠ self ∧ action = .sendSync ∧ ∃ monitor serializedState,
      process.main = .saved monitor serializedState ∧
        raw.message = packSyncMessage monitor.1 serializedState := by
  obtain ⟨envelope, listed, recipient, rfl⟩ := mem_addressed member
  cases does with
  | main does =>
    cases does with
    | sendSync here =>
      rw [List.mem_singleton.1 listed] at recipient ⊢
      exact ⟨Finset.ne_of_mem_erase recipient, rfl, _, _, here, rfl⟩
    | queue | answerDeferred | announce | announceEnd | sendNotify =>
      rw [List.mem_singleton.1 listed] at type
      cases type
    | _ => cases listed
  | dispatch received free dispatches does =>
    cases does with
    | agreed | ended =>
      rw [List.mem_singleton.1 listed] at type
      cases type
    | _ => cases listed

theorem leaving_reads :
    ReadsCaller (MainThread.leaving? : MainThread n σ → _) fun _ => none := {}

theorem leaving_step
    (does : ThreadStep serialization self monitors process action consumed process' sent)
    {monitor : MonitorName} (leaving : process'.main.leaving? = some monitor) :
    process'.owned = process.owned ∧
      (action = .leave monitor ∨ process.main.leaving? = some monitor) := by
  cases does with
  | main does =>
    cases does with
    | configured | assign => exact ⟨rfl, .inr leaving⟩
    | unlock | retry | unlockMonitor =>
      rw [leaving_reads.unlock] at leaving
      cases leaving
    | notify called here same picked =>
      rcases picked with rfl | ⟨recipients, rfl, -⟩
      · exact ⟨rfl, .inr leaving⟩
      · cases leaving
    | leave here =>
      cases leaving
      exact ⟨rfl, .inl rfl⟩
    | acquired =>
      rw [leaving_reads.afterLock] at leaving
      cases leaving
    | released =>
      rw [leaving_reads.afterUnlock] at leaving
      cases leaving
    | sendSync here =>
      rw [here]
      exact ⟨rfl, .inr leaving⟩
    | _ => cases leaving
  | dispatch received free dispatches does =>
    cases does with
    | early | counted => cases leaving
    | notified => exact ⟨rfl, .inr (leaving_reads.signal _ _ ▸ leaving)⟩
    | confirmed => exact ⟨rfl, .inr (leaving_reads.confirm _ _ _ ▸ leaving)⟩
    | _ => exact ⟨rfl, .inr leaving⟩

theorem leaving_owned (leaves : ∀ trace s (e : Event n σ), contract trace s e →
      entersMonitors s e = true)
    (run : Run communicator serialization setup contract trace s) {p : ProcessId n}
    {monitor : MonitorName} (leaving : (s.process p).main.leaving? = some monitor) :
    (s.process p).owned monitor.1 = true := by
  refine process_run (P := fun process => ∀ monitor, process.main.leaving? = some monitor →
    process.owned monitor.1 = true) run ?_ ?_ ?_ p monitor leaving
  · exact fun p monitor leaving => nomatch leaving
  · exact fun process clock receiving before => before
  · intro trace s self action consumed process' sent run may before does monitor leaving
    obtain ⟨owned, rfl | already⟩ := leaving_step does leaving
    · rw [owned]
      exact leaves trace s _ may
    · rw [owned]
      exact before monitor already

theorem sync_packed (run : Run .simple serialization setup contract trace s) {p q : ProcessId n}
    {raw : RawPacket} (member : raw ∈ s.pending p q) (type : raw.messageType = .sync) :
    ∃ monitor, raw.Is (syncOf monitor) := by
  refine pending_run run (P := fun _ _ raw => raw.messageType = .sync →
    ∃ monitor, raw.Is (syncOf monitor)) ?_ p q raw member type
  intro trace s self action consumed process' sent run may does recipient raw member type
  obtain ⟨-, -, monitor, serializedState, -, message⟩ := sync_sent does member type
  exact ⟨monitor, type, serializedState, message⟩

section
variable (enters : ∀ trace s (e : Event n σ), contract trace s e → entersMonitors s e = true)
include enters

theorem enters_once (trace : Trace (System n σ) (Event n σ)) (s : System n σ) (e : Event n σ)
    (may : contract trace s e) : acquiresOnce s e = true := by
  have rule := enters trace s e may
  unfold entersMonitors at rule
  unfold acquiresOnce
  split at rule <;> simp_all

theorem sync_from_holder (run : Run .simple serialization setup contract trace s)
    (does : ThreadStep serialization self monitors (s.process self) action consumed process' sent)
    (monitor : MonitorName) (recipient : ProcessId n) (raw : RawPacket)
    (member : raw ∈ addressed sent recipient) (sync : raw.Is (syncOf monitor)) :
    recipient ≠ self ∧ ∃ time, (s.process self).phase monitor.1 = .holding time := by
  obtain ⟨type, state, packed⟩ := sync
  obtain ⟨other, -, sender, serializedState, main, message⟩ := sync_sent does member type
  obtain rfl : sender = monitor := monitor_of_packed (message.symm.trans packed)
  have leaving : (s.process self).main.leaving? = some sender := by rw [main]; rfl
  have owned := leaving_owned enters run leaving
  refine ⟨other, holding_of_owned (owning_run run self) (holds_iff.2 ⟨owned, ?_⟩) ?_⟩ <;>
    rw [main] <;> exact nofun

theorem no_sync_to_holder (run : Run .simple serialization setup contract trace s) {p : ProcessId n}
    {monitor : MonitorName} (holds : (s.process p).holds monitor.1 = true) (q : ProcessId n) :
    ∀ raw ∈ s.pending q p, ¬raw.Is (syncOf monitor) := by
  have guard : Guarded monitor.1 (syncOf monitor) s := guarded_run run
    fun _ _ _ _ _ _ _ run _ does => sync_from_holder enters run does monitor
  obtain ⟨time, holding⟩ := holding_of_holds (enters_once enters) run holds
  exact guard.holding p time holding q

/-- A dispatch leaves alone the state of a monitor whose mutex the process holds. -/
theorem state_of_holder (run : Run .simple serialization setup contract trace s)
    (holds : (s.process self).holds mutexName = true)
    (received : (s.process self).receiving = .received packet)
    (does : Dispatched self packet monitors (s.process self) process' sent) :
    process'.state mutexName = (s.process self).state mutexName := by
  cases does with
  | synced type changed =>
    by_contra differs
    obtain ⟨monitor, -, rfl, accepted, data, read⟩ := changed mutexName differs
    have member : packet.raw ∈ s.pending packet.source self := received_pending received
    obtain ⟨sender, packed, serializedState, message⟩ := sync_packed run member type
    change packet.message = _ at message
    rw [message] at accepted read
    obtain rfl := packed_for_another sender monitor serializedState data accepted read
    exact no_sync_to_holder enters run holds packet.source packet.raw member
      ⟨packed, serializedState, message⟩
  | _ => rfl

end

/-- The wait whose predicate has been found true. -/
def MainThread.ended? : MainThread n σ → Option (WaitCall σ)
  | .stopped call | .ending call _ _ | .confirming call _ _ => some call
  | _ => none

theorem ended_reads : ReadsCaller (MainThread.ended? : MainThread n σ → _) fun _ => none := {}

theorem holds_of_ended (own : process.Owning) {call : WaitCall σ}
    (ended : process.main.ended? = some call) : process.holds call.mutex = true := by
  have owned := own.main
  cases main : process.main with
  | stopped | ending | confirming =>
    rw [main] at ended owned
    cases ended
    exact holds_iff.2 ⟨owned, by rw [main]; exact nofun⟩
  | _ =>
    rw [main] at ended
    cases ended

/-- Where the program stands still the state does, and dispatches leave it alone. -/
theorem predicate_of_ended
    (enters : ∀ trace s (e : Event n σ), contract trace s e → entersMonitors s e = true)
    (run : Run .simple serialization setup contract trace s) (p : ProcessId n)
    {call : WaitCall σ} (ended : (s.process p).main.ended? = some call) :
    call.predicate ((s.process p).state call.mutex) = true := by
  have always : ∀ p call, (s.process p).main.ended? = some call →
      call.predicate ((s.process p).state call.mutex) = true := by
    refine process_run (P := fun process => ∀ call, process.main.ended? = some call →
      call.predicate (process.state call.mutex) = true) run ?_ ?_ ?_
    · exact fun p call ended => nomatch ended
    · exact fun process clock receiving before => before
    · intro trace s self action consumed process' sent run may before does call ended
      cases does with
      | main does =>
        cases does with
        | configured => exact before call ended
        | assign here =>
          rw [here] at ended
          cases ended
        | unlock | retry | unlockMonitor =>
          rw [ended_reads.unlock] at ended
          cases ended
        | notify called here same picked =>
          rcases picked with rfl | ⟨recipients, rfl, -⟩
          · exact before call ended
          · cases ended
        | acquired =>
          rw [ended_reads.afterLock] at ended
          cases ended
        | released =>
          rw [ended_reads.afterUnlock] at ended
          cases ended
        | stop here holds =>
          cases ended
          exact holds
        | subscribeConfirmations here | announceEnd here =>
          rw [here] at before
          exact before call ended
        | _ => cases ended
      | dispatch received free dispatches does =>
        have kept : (s.process self).main.ended? = some call →
            call.predicate (process'.state call.mutex) = true := by
          intro ended
          have holds := holds_of_ended (owning_run run self) ended
          rw [state_of_holder enters run holds received does]
          exact before call ended
        apply kept
        cases does with
        | early | counted => cases ended
        | notified => exact ended_reads.signal _ _ ▸ ended
        | confirmed => exact ended_reads.confirm _ _ _ ▸ ended
        | _ => exact ended
  exact always p call ended

/-- While a process holds the mutex of a monitor no update of the monitor is on its way to
it and no dispatch changes the state. So what ended a wait is still true when it returns. -/
theorem undisturbed
    (run : Run .simple serialization setup (Obeying entersMonitors) trace s) :
    (∀ p (monitor : MonitorName), (s.process p).holds monitor.1 = true →
      (∀ q, ∀ raw ∈ s.pending q p, ¬raw.Is (syncOf monitor)) ∧
      ∀ s', step .simple serialization s (p, .dispatch) = some s' →
        (s'.process p).state monitor.1 = (s.process p).state monitor.1) ∧
    (∀ p call, (s.process p).main.ended? = some call →
      (s.process p).holds call.mutex = true ∧
      call.predicate ((s.process p).state call.mutex) = true) ∧
    ∀ p s' call, (s.process p).main.ended? = some call →
      step .simple serialization s (p, .waitReturns) = some s' →
      call.predicate ((s'.process p).state call.mutex) = true := by
  have enters : ∀ trace s (e : Event n σ), Obeying entersMonitors trace s e →
      entersMonitors s e = true := fun _ _ _ may => may
  refine ⟨fun p monitor holds => ⟨no_sync_to_holder enters run holds, fun s' taken => ?_⟩,
    fun p call ended => ⟨holds_of_ended (owning_run run p) ended,
      predicate_of_ended enters run p ended⟩, fun p s' call ended taken => ?_⟩
  · cases systemStep (wellFormed_run run) taken with
    | acts does =>
      rw [System.update_own]
      cases does with
      | main does =>
        cases does with
        | configured called => cases called
        | notify called => rcases called with called | called <;> cases called
      | dispatch received free dispatches does =>
        exact state_of_holder enters run holds received does
  · cases systemStep (wellFormed_run run) taken with
    | acts does =>
      rw [System.update_own]
      cases does with
      | main does =>
        cases does with
        | configured called => cases called
        | notify called => rcases called with called | called <;> cases called
        | waitReturns => exact predicate_of_ended enters run p ended

theorem undisturbed_two : ∃ trace s, Run .simple unary (shared 2) (Obeying entersMonitors) trace s ∧
    ∃ call, (s.process 0).main.ended? = some call ∧ (s.process 0).holds call.mutex = true ∧
      call.predicate ((s.process 0).state call.mutex) = true := by
  obtain ⟨trace, s, run, ended⟩ := exists_run .simple unary (shared 2) (Obeying entersMonitors)
    [[(0, .lock board.1), (0, .queue)], deliver 0 1, deliver 1 0, [(0, .acquired),
      (0, .assign board.1 3), (0, .wait news board.1 (· == 3)), (0, .announce), (0, .evaluate),
      (0, .subscribeConfirmations), (0, .announceEnd)], deliver 0 1, deliver 0 1,
      deliver 1 0].flatten
    (fun _ s => (s.process 0).main.ended?.isSome) (by decide +kernel)
  obtain ⟨call, ended⟩ := Option.isSome_iff_exists.1 ended
  exact ⟨trace, s, run, call, ended, (undisturbed run).2.1 0 call ended⟩

end DistributedMonitor
