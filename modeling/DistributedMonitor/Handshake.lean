import DistributedMonitor.WaitEffect

/-! The registrations of the waiting processes at the others: how a step looks to the
pair of a waiter and one that keeps its table, and what holds of every pair. -/

namespace DistributedMonitor
open Library Registration

variable {n : ℕ} {σ : Type} {communicator : Communicator} {serialization : Serialization σ}
  {setup : Setup n σ} {contract : Permission (System n σ) (Event n σ)}
  {trace : Trace (System n σ) (Event n σ)} {s s' : System n σ} {condName : CondName}
  {self p q : ProcessId n} {monitors : List MonitorName} {process process' : Process n σ}
  {action : Action n σ} {consumed : Option (Packet n)} {sent : List (Envelope n)}
  {packet : Packet n}

def System.pair (condName : CondName) (s : System n σ) (p q : ProcessId n) : Pair where
  stage := (s.process p).main.stage condName
  signals := (s.pending p q).filterMap (·.signal condName)
  answers := (s.pending q p).filterMap (·.answer condName)
  listed := p ∈ ((s.process q).waits condName).senders
  acknowledged := q ∈ (s.process p).main.confirmations condName
  notifying := p ∈ (s.process q).main.recipients condName

structure ClientSide (condName : CondName) (q : ProcessId n) (process' : Process n σ)
    (consumed : Option (Packet n)) (sent : List (Envelope n)) (pair pair' : Pair) : Prop where
  stage : pair'.stage = process'.main.stage condName
  signals : pair'.signals = pair.signals ++ (addressed sent q).filterMap (·.signal condName)
  answers : pair.answers = (inboxFrom q consumed).filterMap (·.answer condName) ++ pair'.answers
  listed : pair'.listed = pair.listed
  acknowledged : pair'.acknowledged = (q ∈ process'.main.confirmations condName)
  notifying : pair'.notifying = pair.notifying

structure RegistrarSide (condName : CondName) (p : ProcessId n) (process' : Process n σ)
    (consumed : Option (Packet n)) (sent : List (Envelope n)) (pair pair' : Pair) : Prop where
  stage : pair'.stage = pair.stage
  signals : pair.signals = (inboxFrom p consumed).filterMap (·.signal condName) ++ pair'.signals
  answers : pair'.answers = pair.answers ++ (addressed sent p).filterMap (·.answer condName)
  listed : pair'.listed = (p ∈ (process'.waits condName).senders)
  acknowledged : pair'.acknowledged = pair.acknowledged
  notifying : pair'.notifying = (p ∈ process'.main.recipients condName)

section
variable (does : ThreadStep serialization self monitors (s.process self) action consumed process'
  sent)
include does

theorem clientSide (other : q ≠ self) :
    ClientSide condName q process' consumed sent (s.pair condName self q)
      ((s.update self (process', sent)).pair condName self q) := by
  have mine := s.update_own self process' sent
  have others : (s.update self (process', sent)).process q = s.process q :=
    s.update_other other ..
  obtain ⟨rest, before, after⟩ := pending_acts does self q
  obtain ⟨rest', before', after'⟩ := pending_acts does q self
  unfold System.pair
  rw [mine, others, before, after, before', after']
  simp only [dispatchedFrom, sentFrom, if_neg other, if_true, List.nil_append, List.append_nil,
    List.filterMap_append]
  exact ⟨rfl, rfl, rfl, rfl, rfl, rfl⟩

theorem registrarSide (other : p ≠ self) :
    RegistrarSide condName p process' consumed sent (s.pair condName p self)
      ((s.update self (process', sent)).pair condName p self) := by
  have mine := s.update_own self process' sent
  have others : (s.update self (process', sent)).process p = s.process p :=
    s.update_other other ..
  obtain ⟨rest, before, after⟩ := pending_acts does p self
  obtain ⟨rest', before', after'⟩ := pending_acts does self p
  unfold System.pair
  rw [mine, others, before, after, before', after']
  simp only [dispatchedFrom, sentFrom, if_neg other, if_true, List.nil_append, List.append_nil,
    List.filterMap_append]
  exact ⟨rfl, rfl, rfl, rfl, rfl, rfl⟩

theorem pair_others (notClient : p ≠ self) (notRegistrar : q ≠ self) :
    (s.update self (process', sent)).pair condName p q = s.pair condName p q := by
  have client : (s.update self (process', sent)).process p = s.process p :=
    s.update_other notClient ..
  have registrar : (s.update self (process', sent)).process q = s.process q :=
    s.update_other notRegistrar ..
  obtain ⟨rest, before, after⟩ := pending_acts does p q
  obtain ⟨rest', before', after'⟩ := pending_acts does q p
  unfold System.pair
  rw [client, registrar, before, after, before', after']
  simp only [dispatchedFrom, sentFrom, if_neg notClient, if_neg notRegistrar, List.nil_append,
    List.append_nil]

end

theorem filterMap_addressed {α : Type} {f : RawPacket → Option α}
    (silent : ∀ envelope ∈ sent, f envelope.packet.raw = none) (recipient : ProcessId n) :
    (addressed sent recipient).filterMap f = [] := by
  refine List.filterMap_eq_nil_iff.2 fun raw member => ?_
  obtain ⟨envelope, listed, -, rfl⟩ := mem_addressed member
  exact silent envelope listed

theorem filterMap_inbox {α : Type} {f : RawPacket → Option α}
    (unread : ∀ packet, consumed = some packet → f packet.raw = none) (source : ProcessId n) :
    (inboxFrom source consumed).filterMap f = [] := by
  refine List.filterMap_eq_nil_iff.2 fun raw member => ?_
  cases consumed with
  | none => cases member
  | some packet =>
    obtain ⟨-, rfl⟩ := mem_inboxFrom.1 member
    exact unread packet rfl

theorem inbox_single {α : Type} {f : RawPacket → Option α} {shown : α}
    (shows : f packet.raw = some shown) :
    (inboxFrom packet.source (some packet)).filterMap f = [shown] := by
  simp [inboxFrom, shows]

theorem inbox_other {α : Type} {f : RawPacket → Option α} (other : packet.source ≠ q) :
    (inboxFrom q (some packet)).filterMap f = [] := by
  simp [inboxFrom, other]

theorem addressed_single {α : Type} {f : RawPacket → Option α} {shown : α}
    {recipients : Finset (ProcessId n)} (shows : f packet.raw = some shown)
    (recipient : q ∈ recipients) :
    (addressed [⟨packet, recipients⟩] q).filterMap f = [shown] := by
  simp [addressed_singleton, recipient, shows]

theorem unsent {α : Type} {f : RawPacket → Option α} {recipients : Finset (ProcessId n)}
    (none' : f packet.raw = none) :
    ∀ envelope ∈ [(⟨packet, recipients⟩ : Envelope n)], f envelope.packet.raw = none := by
  intro envelope member
  rw [List.mem_singleton.1 member]
  exact none'

section
variable {pair' : Pair}

theorem ClientSide.unchanged
    (side : ClientSide condName q process' consumed sent (s.pair condName self q) pair')
    (stage : process'.main.stage condName = (s.process self).main.stage condName)
    (confirmations : process'.main.confirmations condName =
      (s.process self).main.confirmations condName)
    (silent : ∀ envelope ∈ sent, envelope.packet.raw.signal condName = none)
    (unread : (inboxFrom q consumed).filterMap (·.answer condName) = []) :
    pair' = s.pair condName self q := by
  refine Pair.ext (side.stage.trans stage) ?_ ?_ side.listed ?_ side.notifying
  · rw [side.signals, filterMap_addressed silent, List.append_nil]
  · rw [side.answers, unread, List.nil_append]
  · rw [side.acknowledged, confirmations]
    rfl

theorem client_step (effect : WaitEffect self condName (s.process self) consumed process' sent)
    (side : ClientSide condName q process' consumed sent (s.pair condName self q) pair')
    (uncounted : self ∉ (s.process self).main.confirmations condName) (other : q ≠ self) :
    pair' = s.pair condName self q ∨ Step (s.pair condName self q) pair' := by
  have member : q ∈ otherProcesses self := mem_otherProcesses.2 other
  cases effect with
  | quiet unread silent main =>
    exact .inl (side.unchanged main.stage main.confirmations
      (fun envelope member => (silent envelope member).1)
      (filterMap_inbox (fun packet same => (unread packet same).2) q))
  | announced before after confirmations =>
    have step : Step (s.pair condName self q) _ := .announce before
    refine .inr (step.to (side.stage.trans after) ?_ side.answers.symm side.listed ?_ side.notifying)
    · rw [side.signals, addressed_single (if_pos rfl) member]
    · rw [side.acknowledged, confirmations]
      rfl
  | withdrew before after confirmations =>
    have step : Step (s.pair condName self q) _ := .withdraw before
    refine .inr (step.to (side.stage.trans after) ?_ side.answers.symm side.listed ?_ side.notifying)
    · rw [side.signals, addressed_single (if_pos rfl) member]
    · rw [side.acknowledged, confirmations]
      rfl
  | @finished _ received before after about complete collected confirmations =>
    rw [collected] at uncounted
    have counted := (PacketSet.size_eq_iff about uncounted).1 complete q other
    have done : (s.pair condName self q).acknowledged := by
      change q ∈ (s.process self).main.confirmations condName
      rwa [collected]
    have step : Step (s.pair condName self q) _ := .finish before done
    refine .inr (step.to (side.stage.trans after) ?_ side.answers.symm side.listed ?_ side.notifying)
    · rw [side.signals]
      exact List.append_nil _
    · rw [side.acknowledged, confirmations]
      exact eq_false List.not_mem_nil
  | heard read main =>
    exact .inl (side.unchanged main.stage main.confirmations nofun
      (filterMap_inbox (fun _ same => Option.some.inj same ▸ answer_of_signal read) q))
  | forgot read main =>
    exact .inl (side.unchanged main.stage main.confirmations (unsent (signal_none rfl nofun nofun))
      (filterMap_inbox (fun _ same => Option.some.inj same ▸ answer_of_signal read) q))
  | picked stage confirmations => exact .inl (side.unchanged stage confirmations nofun rfl)
  | notified stage confirmations =>
    exact .inl (side.unchanged stage confirmations (unsent (signal_none rfl nofun nofun)) rfl)
  | @signalled _ packet read main =>
    by_cases source : packet.source = q
    · subst source
      have step : Step (s.pair condName self packet.source) _ :=
        .read (side.answers.trans (congrArg (· ++ _) (inbox_single read)))
      refine .inr (step.to (side.stage.trans main.stage) ?_ rfl side.listed ?_ side.notifying)
      · exact side.signals.trans (List.append_nil _)
      · rw [side.acknowledged, main.confirmations]
        rfl
    · exact .inl (side.unchanged main.stage main.confirmations nofun (inbox_other source))
  | @confirmed _ packet read stage confirmations =>
    by_cases source : packet.source = q
    · subst source
      have step : Step (s.pair condName self packet.source) _ :=
        .acknowledge (side.answers.trans (congrArg (· ++ _) (inbox_single read)))
      refine .inr (step.to (side.stage.trans stage) ?_ rfl side.listed ?_ side.notifying)
      · exact side.signals.trans (List.append_nil _)
      · rw [side.acknowledged]
        exact eq_true ((confirmations _).2 (.inr rfl))
    · refine .inl (Pair.ext (side.stage.trans stage) ?_ ?_ side.listed ?_ side.notifying)
      · exact side.signals.trans (List.append_nil _)
      · rw [side.answers, inbox_other source]
        rfl
      · rw [side.acknowledged]
        exact propext ((confirmations q).trans (or_iff_left (Ne.symm source)))

theorem RegistrarSide.unchanged
    (side : RegistrarSide condName p process' consumed sent (s.pair condName p self) pair')
    (waits : process'.waits condName = (s.process self).waits condName)
    (recipients : process'.main.recipients condName = (s.process self).main.recipients condName)
    (silent : ∀ envelope ∈ sent, envelope.packet.raw.answer condName = none)
    (unread : (inboxFrom p consumed).filterMap (·.signal condName) = []) :
    pair' = s.pair condName p self := by
  refine Pair.ext side.stage ?_ ?_ ?_ side.acknowledged ?_
  · rw [side.signals, unread, List.nil_append]
  · rw [side.answers, filterMap_addressed silent, List.append_nil]
  · rw [side.listed, waits]
    rfl
  · rw [side.notifying, recipients]
    rfl

/-- A withdrawal may be heard while the client is picked, which is no step of a pair. -/
theorem registrar_step (effect : WaitEffect self condName (s.process self) consumed process' sent)
    (side : RegistrarSide condName p process' consumed sent (s.pair condName p self) pair') :
    pair' = s.pair condName p self ∨ Step (s.pair condName p self) pair' ∨
      Forgotten (s.pair condName p self) pair' ∧ ∃ packet, consumed = some packet ∧
        packet.raw.signal condName = some .withdraw ∧ packet.source = p := by
  cases effect with
  | quiet unread silent main waits =>
    exact .inl (side.unchanged waits main.recipients
      (fun envelope member => (silent envelope member).2)
      (filterMap_inbox (fun packet same => (unread packet same).1) p))
  | announced _ _ _ recipients waits | withdrew _ _ _ recipients waits =>
    exact .inl (side.unchanged waits recipients (unsent (answer_none rfl nofun nofun)) rfl)
  | finished _ _ _ _ _ _ recipients waits => exact .inl (side.unchanged waits recipients nofun rfl)
  | @heard _ packet read main listed =>
    by_cases source : packet.source = p
    · subst source
      have step : Step (s.pair condName packet.source self)
          { s.pair condName packet.source self with
            signals := pair'.signals
            listed := pair'.listed } :=
        .hear (side.signals.trans (congrArg (· ++ _) (inbox_single read)))
      refine .inr (.inl (step.to side.stage rfl ?_ rfl side.acknowledged ?_))
      · exact side.answers.trans (List.append_nil _)
      · rw [side.notifying, main.recipients]
        rfl
    · have less : pair'.listed → (s.pair condName p self).listed := by
        rw [side.listed]
        exact fun member => (listed p member).resolve_left (Ne.symm source)
      refine .inr (.inl ((Step.unlist less).to side.stage ?_ ?_ rfl side.acknowledged ?_))
      · rw [side.signals, inbox_other source]
        rfl
      · exact side.answers.trans (List.append_nil _)
      · rw [side.notifying, main.recipients]
        rfl
  | @forgot _ packet lamportTime read main waits =>
    have unlisted : pair'.listed = False := by
      rw [side.listed, waits]
      exact eq_false List.not_mem_nil
    by_cases source : packet.source = p
    · subst source
      refine .inr (.inr ⟨⟨side.stage, ?_, ?_, unlisted ▸ id, side.acknowledged, ?_⟩,
        packet, rfl, read, rfl⟩)
      · rw [side.signals, inbox_single read]
        rfl
      · rw [side.answers, addressed_single (if_pos rfl) (Finset.mem_singleton_self _)]
      · rw [side.notifying, main.recipients]
        rfl
    · have less : pair'.listed → (s.pair condName p self).listed := by
        rw [unlisted]
        exact False.elim
      have elsewhere : p ∉ ({packet.source} : Finset (ProcessId n)) :=
        fun member => source (Finset.mem_singleton.1 member).symm
      refine .inr (.inl ((Step.unlist less).to side.stage ?_ ?_ rfl side.acknowledged ?_))
      · rw [side.signals, inbox_other source]
        rfl
      · rw [side.answers, addressed_singleton, if_neg elsewhere]
        exact List.append_nil _
      · rw [side.notifying, main.recipients]
        rfl
  | picked _ _ known waits =>
    have known' : pair'.notifying → (s.pair condName p self).listed := by
      rw [side.notifying]
      exact known p
    refine .inr (.inl ((Step.pick known').to side.stage ?_ ?_ ?_ side.acknowledged rfl))
    · exact side.signals.symm
    · exact side.answers.trans (List.append_nil _)
    · rw [side.listed, waits]
      rfl
  | notified _ _ after waits =>
    have unpicked : pair'.notifying = False := by
      rw [side.notifying, after]
      exact eq_false (Finset.notMem_empty p)
    have listed : pair'.listed = (s.pair condName p self).listed := by
      rw [side.listed, waits]
      rfl
    by_cases recipient : p ∈ (s.process self).main.recipients condName
    · have step : Step (s.pair condName p self) _ := .notify recipient
      refine .inr (.inl (step.to side.stage side.signals.symm ?_ listed side.acknowledged unpicked))
      rw [side.answers, addressed_single (if_pos rfl) recipient]
    · refine .inl (Pair.ext side.stage side.signals.symm ?_ listed side.acknowledged ?_)
      · rw [side.answers, addressed_singleton, if_neg recipient]
        exact List.append_nil _
      · exact unpicked.trans (eq_false recipient).symm
  | signalled read main waits =>
    exact .inl (side.unchanged waits main.recipients nofun
      (filterMap_inbox (fun _ same => Option.some.inj same ▸ signal_of_answer read) p))
  | confirmed read _ _ recipients waits =>
    exact .inl (side.unchanged waits recipients nofun
      (filterMap_inbox (fun _ same => Option.some.inj same ▸ signal_of_answer read) p))

end

/-- Nobody is registered with itself, and nothing is on its way from a process to itself. -/
structure Alone (pair : Pair) : Prop where
  signals : pair.signals = []
  answers : pair.answers = []
  unlisted : ¬pair.listed
  unacknowledged : ¬pair.acknowledged
  unpicked : ¬pair.notifying

structure Handshake (condName : CondName) (s : System n σ) : Prop where
  alone : ∀ p, Alone (s.pair condName p p)
  sound : ∀ p q, p ≠ q → Sound (s.pair condName p q)

/-- The end of a wait is not dispatched between the choice of its process for a
notification and the sending of the notification. -/
def endsOutsideNotify (condName : CondName) (s : System n σ) (e : Event n σ) : Bool :=
  match e.2, (s.process e.1).receiving with
  | .dispatch, .received packet => ¬(packet.messageType = .condWaitEnd ∧ packet.message = condName ∧
      packet.source ∈ (s.process e.1).main.recipients condName)
  | _, _ => true

theorem withdraw_iff {raw : RawPacket} : raw.signal condName = some .withdraw ↔
    raw.messageType = .condWaitEnd ∧ raw.message = condName := by
  unfold RawPacket.signal
  cases raw.messageType <;> simp

theorem Alone.acts (alone : Alone (s.pair condName self self))
    (does : ThreadStep serialization self monitors (s.process self) action consumed process' sent)
    (effect : WaitEffect self condName (s.process self) consumed process' sent) :
    Alone ((s.update self (process', sent)).pair condName self self) := by
  have mine := s.update_own self process' sent
  obtain ⟨rest, pending, pending'⟩ := pending_acts does self self
  have signals := alone.signals
  have answers := alone.answers
  simp only [System.pair, pending, dispatchedFrom, if_true, List.filterMap_append,
    List.append_eq_nil_iff] at signals answers
  have away : ∀ packet, consumed = some packet → ¬packet.raw.Apart condName →
      packet.source ≠ self := by
    rintro packet rfl relevant rfl
    refine relevant ⟨?_, ?_⟩
    · exact List.filterMap_eq_nil_iff.1 signals.1 _ (mem_inboxFrom.2 ⟨rfl, rfl⟩)
    · exact List.filterMap_eq_nil_iff.1 answers.1 _ (mem_inboxFrom.2 ⟨rfl, rfl⟩)
  have unsent : ∀ raw ∈ addressed sent self, raw.Apart condName := by
    intro raw member
    obtain ⟨envelope, listed, recipient, rfl⟩ := mem_addressed member
    cases effect with
    | quiet unread silent => exact silent envelope listed
    | announced | withdrew =>
      rw [List.mem_singleton.1 listed] at recipient
      exact absurd rfl (mem_otherProcesses.1 recipient)
    | forgot read =>
      rw [List.mem_singleton.1 listed] at recipient
      refine absurd (Finset.mem_singleton.1 recipient).symm (away _ rfl fun apart => ?_)
      rw [apart.1] at read
      cases read
    | notified =>
      rw [List.mem_singleton.1 listed] at recipient
      exact absurd recipient alone.unpicked
    | finished | heard | picked | signalled | confirmed => cases listed
  constructor
  case signals =>
    simp only [System.pair, pending', sentFrom, if_true, List.filterMap_append, signals.2,
      List.nil_append]
    exact List.filterMap_eq_nil_iff.2 fun raw member => (unsent raw member).1
  case answers =>
    simp only [System.pair, pending', sentFrom, if_true, List.filterMap_append, answers.2,
      List.nil_append]
    exact List.filterMap_eq_nil_iff.2 fun raw member => (unsent raw member).2
  case unlisted =>
    have unlisted : self ∉ ((s.process self).waits condName).senders := alone.unlisted
    simp only [System.pair, mine]
    cases effect with
    | heard read main listed =>
      intro member
      rcases listed self member with source | already
      · refine away _ rfl (fun apart => ?_) source.symm
        rw [apart.1] at read
        cases read
      · exact unlisted already
    | forgot read main waits =>
      rw [waits]
      exact List.not_mem_nil
    | quiet _ _ _ waits | announced _ _ _ _ waits | withdrew _ _ _ _ waits
    | finished _ _ _ _ _ _ _ waits | picked _ _ _ waits | notified _ _ _ waits
    | signalled _ _ waits | confirmed _ _ _ _ waits => rwa [waits]
  case unacknowledged =>
    have unacknowledged : self ∉ (s.process self).main.confirmations condName :=
      alone.unacknowledged
    simp only [System.pair, mine]
    cases effect with
    | finished _ _ _ _ _ confirmations =>
      rw [confirmations]
      exact List.not_mem_nil
    | confirmed read stage confirmations =>
      rw [confirmations]
      rintro (already | source)
      · exact unacknowledged already
      · refine away _ rfl (fun apart => ?_) source.symm
        rw [apart.2] at read
        cases read
    | quiet _ _ main | heard _ main | forgot _ main | signalled _ main => rwa [main.confirmations]
    | announced _ _ confirmations | withdrew _ _ confirmations | picked _ confirmations
    | notified _ confirmations => rwa [confirmations]
  case unpicked =>
    have unpicked : self ∉ (s.process self).main.recipients condName := alone.unpicked
    simp only [System.pair, mine]
    cases effect with
    | picked _ _ known => exact fun member => alone.unlisted (known self member)
    | notified _ _ after =>
      rw [after]
      exact Finset.notMem_empty self
    | quiet _ _ main | heard _ main | forgot _ main | signalled _ main => rwa [main.recipients]
    | announced _ _ _ recipients | withdrew _ _ _ recipients
    | finished _ _ _ _ _ _ recipients | confirmed _ _ _ recipients => rwa [recipients]

theorem ends_outside
    (does : ThreadStep serialization self monitors (s.process self) action consumed process' sent)
    (outside : endsOutsideNotify condName s (self, action) = true) (packet : Packet n)
    (same : consumed = some packet) (ends : packet.raw.signal condName = some .withdraw) :
    packet.source ∉ (s.process self).main.recipients condName := by
  subst same
  cases does with
  | dispatch received =>
    intro picked
    simp only [endsOutsideNotify, received, decide_eq_true_eq] at outside
    obtain ⟨type, named⟩ := withdraw_iff.1 ends
    exact outside ⟨type, named, picked⟩

theorem pair_receive {source : ProcessId n} {raw : RawPacket} {rest : List RawPacket}
    (listening : (s.process self).receiving = .listening)
    (head : s.channel source self = raw :: rest) (p q : ProcessId n) :
    System.pair condName
      { process := Function.update s.process self
          ((s.process self).receive communicator source raw)
        channel := fun from' to' =>
          if from' = source ∧ to' = self then rest else s.channel from' to' } p q =
      s.pair condName p q := by
  have main : ∀ p, (Function.update s.process self
      ((s.process self).receive communicator source raw) p).main = (s.process p).main :=
    read_update (·.main) rfl
  have waits : ∀ p, (Function.update s.process self
      ((s.process self).receive communicator source raw) p).waits condName =
        (s.process p).waits condName :=
    read_update (·.waits condName) rfl
  unfold System.pair
  rw [pending_receive listening head, pending_receive listening head]
  simp only [main, waits]

theorem pair_updateTimestamp (updating : (s.process self).receiving = .updating packet)
    (p q : ProcessId n) :
    (s.update self ({ s.process self with
      receiving := .received
        { packet with lamportTime := (s.process self).currentLamportTime } }, [])).pair
          condName p q = s.pair condName p q := by
  have main : ∀ p, (Function.update s.process self { s.process self with
      receiving := .received
        { packet with lamportTime := (s.process self).currentLamportTime } } p).main =
          (s.process p).main :=
    read_update (·.main) rfl
  have waits : ∀ p, (Function.update s.process self { s.process self with
      receiving := .received
        { packet with lamportTime := (s.process self).currentLamportTime } } p).waits condName =
          (s.process p).waits condName :=
    read_update (·.waits condName) rfl
  -- neither a signal nor an answer has anything to do with the stamp
  have unstamped : ∀ {α : Type} (f : RawPacket → Option α), (∀ raw time,
      f { raw with lamportTime := time } = f raw) → ∀ p q, ((s.update self ({ s.process self with
        receiving := .received
          { packet with lamportTime := (s.process self).currentLamportTime } }, [])).pending p q
            ).filterMap f = (s.pending p q).filterMap f := by
    intro α f ignores p q
    rw [pending_updateTimestamp updating]
    split_ifs with here
    · obtain ⟨rfl, rfl⟩ := here
      have old : s.pending packet.source q = packet.raw :: s.channel packet.source q := by
        simp [System.pending, updating, ReceivingThread.inbox, inboxFrom]
      have same : f ⟨(s.process q).currentLamportTime, packet.messageType, packet.message⟩ =
          f packet.raw := ignores packet.raw _
      rw [old, List.filterMap_cons, List.filterMap_cons, same]
    · rfl
  unfold System.pair
  rw [unstamped _ (fun _ _ => rfl), unstamped _ (fun _ _ => rfl)]
  simp only [System.update, main, waits]

theorem pairs_run {P : Pair → Prop} (run : Run communicator serialization setup contract trace s)
    (initially : ∀ pair : Pair, Sound pair → pair.stage = .outside → P pair)
    (stepped : ∀ pair pair', P pair → Step pair pair' → P pair')
    (heard : ∀ trace s e, Run communicator serialization setup contract trace s →
      (∀ p, Alone (s.pair condName p p)) → (∀ p q, p ≠ q → P (s.pair condName p q)) →
      contract trace s e → ∀ pair pair', P pair → Forgotten pair pair' →
      (endsOutsideNotify condName s e = true → ¬pair.notifying) → P pair') :
    (∀ p, Alone (s.pair condName p p)) ∧ ∀ p q, p ≠ q → P (s.pair condName p q) := by
  apply run.history_invariant (I := fun _ s =>
    (∀ p, Alone (s.pair condName p p)) ∧ ∀ p q, p ≠ q → P (s.pair condName p q))
  · rintro _ rfl
    exact ⟨fun p => ⟨rfl, rfl, List.not_mem_nil, List.not_mem_nil, Finset.notMem_empty p⟩,
      fun p q _ => initially _ (.outside rfl rfl rfl List.not_mem_nil List.not_mem_nil
        (Finset.notMem_empty p)) rfl⟩
  · rintro trace s e s' run ⟨alone, kept⟩ may taken
    have hears := heard trace s e run alone kept may
    cases systemStep (wellFormed_run run) taken with
    | receive listening head =>
      refine ⟨fun p => ?_, fun p q different => ?_⟩ <;> rw [pair_receive listening head]
      · exact alone p
      · exact kept p q different
    | updateTimestamp updating =>
      refine ⟨fun p => ?_, fun p q different => ?_⟩ <;> rw [pair_updateTimestamp updating]
      · exact alone p
      · exact kept p q different
    | @acts self action consumed process' sent does =>
      have effect : WaitEffect self condName (s.process self) consumed process' sent :=
        waitEffect (wellFormed_run run self) does
      refine ⟨fun p => ?_, fun p q different => ?_⟩
      · by_cases mine : p = self
        · subst mine
          exact (alone p).acts does effect
        · rw [pair_others does mine mine]
          exact alone p
      · have holds := kept p q different
        by_cases client : p = self
        · subst client
          rcases client_step effect (clientSide does different.symm)
            (alone p).unacknowledged different.symm with same | step
          · rwa [same]
          · exact stepped _ _ holds step
        · by_cases registrar : q = self
          · subst registrar
            rcases registrar_step effect (registrarSide does different) with
              same | step | ⟨forgotten, packet, read, ends, rfl⟩
            · rwa [same]
            · exact stepped _ _ holds step
            · exact hears _ _ holds forgotten fun outside =>
                ends_outside does outside packet read ends
          · rw [pair_others does client registrar]
            exact holds

/-- Every wait is registered soundly with every other process, as long as no end of a wait
comes between a choice and its notification. -/
theorem handshake_run (run : Run .simple serialization setup contract trace s)
    (outside : ∀ trace s e, Run .simple serialization setup contract trace s →
      Handshake condName s → contract trace s e → endsOutsideNotify condName s e = true) :
    Handshake condName s := by
  obtain ⟨alone, sound⟩ := pairs_run (P := Sound) run (fun _ sound _ => sound)
    (fun _ _ sound step => sound.step step)
    (fun trace s e run alone sound may _ _ before forgotten idle =>
      before.step (forgotten.step (idle (outside trace s e run ⟨alone, sound⟩ may))))
  exact ⟨alone, sound⟩

end DistributedMonitor
