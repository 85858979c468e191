import DistributedMonitor.WellFormed

/-! The packets from one process to another that are sent and not yet dispatched,
oldest first, and what each step does to them. -/

namespace DistributedMonitor
open Library

variable {n : ℕ} {σ : Type} {communicator : Communicator} {serialization : Serialization σ}
  {setup : Setup n σ} {self : ProcessId n} {monitors : List MonitorName}
  {process process' : Process n σ} {action : Action n σ} {consumed : Option (Packet n)}
  {sent : List (Envelope n)} {s s' : System n σ} {e : Event n σ}

def RawPacket.carries (messageType : MessageType) (name : ByteString) (raw : RawPacket) : Bool :=
  raw.messageType = messageType ∧ raw.message = name

theorem RawPacket.carries_iff {messageType : MessageType} {name : ByteString} {raw : RawPacket} :
    raw.carries messageType name = true ↔ raw.messageType = messageType ∧ raw.message = name := by
  simp [RawPacket.carries]

def ReceivingThread.inbox : ReceivingThread n → Option (Packet n)
  | .listening => none
  | .updating packet | .received packet => some packet

def inboxFrom (source : ProcessId n) : Option (Packet n) → List RawPacket
  | some packet => if packet.source = source then [packet.raw] else []
  | none => []

theorem mem_inboxFrom {source : ProcessId n} {packet : Packet n} {raw : RawPacket} :
    raw ∈ inboxFrom source (some packet) ↔ packet.source = source ∧ raw = packet.raw := by
  unfold inboxFrom
  by_cases same : packet.source = source <;> simp [same]

def System.pending (s : System n σ) (source recipient : ProcessId n) : List RawPacket :=
  inboxFrom source (s.process recipient).receiving.inbox ++ s.channel source recipient

theorem received_pending {packet : Packet n}
    (received : (s.process self).receiving = .received packet) :
    packet.raw ∈ s.pending packet.source self := by
  apply List.mem_append_left
  rw [received]
  exact mem_inboxFrom.2 ⟨rfl, rfl⟩

/-- No packet is in flight and none awaits its dispatch. -/
def System.Quiescent (s : System n σ) : Prop := ∀ p q, s.pending p q = []

def dispatchedFrom (self source recipient : ProcessId n) (consumed : Option (Packet n)) :
    List RawPacket :=
  if recipient = self then inboxFrom source consumed else []

def sentFrom (self source recipient : ProcessId n) (sent : List (Envelope n)) : List RawPacket :=
  if source = self then addressed sent recipient else []

theorem dispatchedFrom_source (packet : Packet n) :
    dispatchedFrom self packet.source self (some packet) = [packet.raw] := by
  simp [dispatchedFrom, inboxFrom]

theorem dispatchedFrom_none (source recipient : ProcessId n) :
    dispatchedFrom self source recipient none = [] := by
  simp [dispatchedFrom, inboxFrom]

theorem mainStep_receiving (does : MainStep serialization self process action process' sent) :
    process'.receiving = process.receiving := by
  cases does with
  | unlock | retry | unlockMonitor =>
    simp only [Process.unlock]
    split_ifs <;> rfl
  | _ => rfl

theorem dispatched_receiving {packet : Packet n}
    (does : Dispatched self packet monitors process process' sent) :
    process'.receiving = .listening := by
  cases does <;> rfl

theorem dispatch_listening {packet : Packet n} {outcome : Outcome n σ}
    (dispatches : process.dispatch serialization self packet = .ok outcome) :
    outcome.1.receiving = .listening := by
  unfold Process.dispatch at dispatches
  cases ran : runCallbacks serialization self packet (process.subscriptions.map (·.2)) process with
  | error => simp [ran, bind, Except.bind] at dispatches
  | ok result =>
    obtain ⟨process', sent, invoked⟩ := result
    cases invoked with
    | false => simp [ran, bind, Except.bind] at dispatches
    | true =>
      simp only [ran, bind, Except.bind, if_true, pure, Except.pure, Except.ok.injEq] at dispatches
      rw [← dispatches]

theorem mem_addressed {raw : RawPacket} {recipient : ProcessId n}
    (member : raw ∈ addressed sent recipient) :
    ∃ envelope ∈ sent, recipient ∈ envelope.recipients ∧ envelope.packet.raw = raw := by
  obtain ⟨envelope, kept, rfl⟩ := List.mem_map.1 member
  obtain ⟨member, recipient⟩ := List.mem_filter.1 kept
  exact ⟨envelope, member, by simpa using recipient, rfl⟩

theorem unsent_nil {P : RawPacket → Prop} (recipient : ProcessId n) :
    ∀ raw ∈ addressed ([] : List (Envelope n)) recipient, P raw :=
  nofun

@[simp] theorem addressed_nil (recipient : ProcessId n) :
    addressed ([] : List (Envelope n)) recipient = [] := rfl

theorem addressed_singleton (packet : Packet n) (recipients : Finset (ProcessId n))
    (recipient : ProcessId n) :
    addressed [⟨packet, recipients⟩] recipient = if recipient ∈ recipients then [packet.raw] else [] := by
  unfold addressed
  by_cases listed : recipient ∈ recipients <;> simp [listed]

theorem pending_receive {source : ProcessId n} {raw : RawPacket} {rest : List RawPacket}
    (listening : (s.process self).receiving = .listening)
    (head : s.channel source self = raw :: rest) (p q : ProcessId n) :
    System.pending
      { process := Function.update s.process self
          ((s.process self).receive communicator source raw)
        channel := fun from' to' =>
          if from' = source ∧ to' = self then rest else s.channel from' to' } p q =
      s.pending p q := by
  have inbox : ((s.process self).receive communicator source raw).receiving.inbox =
      some (toPacket raw source) := by
    cases communicator <;> rfl
  unfold System.pending
  by_cases mine : q = self
  · subst mine
    simp only [Function.update_self, inbox, listening]
    by_cases from' : p = source
    · subst from'
      simp [inboxFrom, ReceivingThread.inbox, head]
    · simp [inboxFrom, ReceivingThread.inbox, from', Ne.symm from']
  · simp only [Function.update_of_ne mine, mine, and_false, if_false]

theorem pending_updateTimestamp {packet : Packet n}
    (updating : (s.process self).receiving = .updating packet) (p q : ProcessId n) :
    System.pending (s.update self ({ s.process self with
      receiving := .received
        { packet with lamportTime := (s.process self).currentLamportTime } }, [])) p q =
      if q = self ∧ packet.source = p then
        ⟨(s.process self).currentLamportTime, packet.messageType, packet.message⟩ ::
          s.channel p q
      else s.pending p q := by
  have unsent : (s.update self ({ s.process self with
      receiving := .received
        { packet with lamportTime := (s.process self).currentLamportTime } }, [])).channel p q =
      s.channel p q := by
    simp [System.update]
  unfold System.pending
  rw [unsent]
  by_cases mine : q = self
  · subst mine
    by_cases from' : packet.source = p
    · simp [System.update, inboxFrom, ReceivingThread.inbox, from', Packet.raw]
    · simp [System.update, inboxFrom, ReceivingThread.inbox, from', updating]
  · simp [System.update, mine]

/-- A step of a thread takes at most one packet off the front and puts what it sends at the end. -/
theorem pending_acts (does : ThreadStep serialization self monitors (s.process self) action consumed
      process' sent) (p q : ProcessId n) :
    ∃ rest, s.pending p q = dispatchedFrom self p q consumed ++ rest ∧
      (s.update self (process', sent)).pending p q = rest ++ sentFrom self p q sent := by
  have channel : (s.update self (process', sent)).channel p q =
      s.channel p q ++ sentFrom self p q sent := by
    simp only [System.update, sentFrom]
    split_ifs <;> simp
  simp only [System.pending, channel]
  cases does with
  | main does =>
    refine ⟨inboxFrom p (s.process q).receiving.inbox ++ s.channel p q,
      by rw [dispatchedFrom_none]; rfl, ?_⟩
    by_cases mine : q = self
    · subst mine
      simp [System.update, mainStep_receiving does]
    · simp [System.update, mine]
  | @dispatch packet _ _ received free dispatches does =>
    by_cases mine : q = self
    · subst mine
      refine ⟨s.channel p q, ?_, ?_⟩
      · simp [dispatchedFrom, received, ReceivingThread.inbox]
      · simp [System.update, dispatched_receiving does, ReceivingThread.inbox, inboxFrom]
    · exact ⟨inboxFrom p (s.process q).receiving.inbox ++ s.channel p q,
        by simp [dispatchedFrom, mine], by simp [System.update, mine]⟩

theorem mem_pending_acts (does : ThreadStep serialization self monitors (s.process self) action
      consumed process' sent) {p q : ProcessId n} {raw : RawPacket}
    (member : raw ∈ (s.update self (process', sent)).pending p q) :
    raw ∈ s.pending p q ∨ p = self ∧ raw ∈ addressed sent q := by
  obtain ⟨rest, pending, pending'⟩ := pending_acts does p q
  rw [pending'] at member
  rcases List.mem_append.1 member with old | new
  · rw [pending]
    exact .inl (List.mem_append_right _ old)
  · unfold sentFrom at new
    split_ifs at new with same
    · exact .inr ⟨same, new⟩
    · cases new

theorem pending_main (does : MainStep serialization self (s.process self) action process' sent)
    (p q : ProcessId n) : (s.update self (process', sent)).pending p q =
      s.pending p q ++ sentFrom self p q sent := by
  have acts : ThreadStep serialization self [] (s.process self) action none process' sent :=
    .main does
  obtain ⟨rest, pending, pending'⟩ := pending_acts acts p q
  rw [pending', pending, dispatchedFrom_none, List.nil_append]

theorem mem_sentFrom {packet : Packet n} {recipients : Finset (ProcessId n)} {p q : ProcessId n}
    {raw : RawPacket} : raw ∈ sentFrom self p q [⟨packet, recipients⟩] ↔
      p = self ∧ q ∈ recipients ∧ raw = packet.raw := by
  unfold sentFrom
  rw [addressed_singleton]
  by_cases sender : p = self <;> by_cases listed : q ∈ recipients <;> simp [sender, listed]

theorem mem_otherProcesses {q : ProcessId n} : q ∈ otherProcesses self ↔ q ≠ self := by
  simp [otherProcesses]

theorem threadStep_clock
    (does : ThreadStep serialization self monitors process action consumed process' sent) :
    process.currentLamportTime ≤ process'.currentLamportTime := by
  cases does with
  | main does =>
    cases does with
    | unlock | retry | unlockMonitor =>
      unfold Process.unlock
      split_ifs <;> exact le_rfl
    | queue | answerDeferred | announce | announceEnd | sendNotify | sendSync => exact Nat.le_succ _
    | _ => exact le_rfl
  | dispatch received free dispatches does =>
    cases does with
    | agreed | ended => exact Nat.le_succ _
    | _ => exact le_rfl

theorem threadStep_inbox {packet : Packet n}
    (does : ThreadStep serialization self monitors process action consumed process' sent)
    (received : process'.receiving = .received packet) : process.receiving = .received packet := by
  cases does with
  | main does => exact mainStep_receiving does ▸ received
  | dispatch _ free dispatches does =>
    rw [dispatched_receiving does] at received
    cases received

end DistributedMonitor
