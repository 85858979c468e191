import DistributedMonitor.Delivery
import DistributedMonitor.Notification
import DistributedMonitor.WaitTable

/-! The end of a wait is a barrier: once it returns, nobody lists the process and nothing of
the wait is on its way, so each confirmation counts for the wait it confirms. -/

namespace DistributedMonitor
open Library Registration

variable {n : ℕ} {σ : Type} {communicator : Communicator} {serialization : Serialization σ}
  {setup : Setup n σ} {contract : Permission (System n σ) (Event n σ)}
  {trace later earlier : Trace (System n σ) (Event n σ)} {s s' s₀ : System n σ} {e : Event n σ}
  {condName : CondName} {self p q : ProcessId n} {monitors : List MonitorName}
  {process process' : Process n σ} {action : Action n σ} {consumed : Option (Packet n)}
  {sent : List (Envelope n)} {packet : Packet n} {raw : RawPacket} {raws : List RawPacket}

def waitReturned (condName : CondName) (p : ProcessId n) (s : System n σ) (e : Event n σ) : Bool :=
  match e.2, (s.process p).main with
  | .waitReturns, .confirming call _ _ => e.1 = p ∧ call.condName = condName
  | _, _ => false

def waitsReturned (condName : CondName) (p : ProcessId n)
    (trace : Trace (System n σ) (Event n σ)) : ℕ :=
  trace.countP fun entry => waitReturned condName p entry.1 entry.2

def waitsAgain (condName : CondName) (p : ProcessId n) (e : Event n σ) : Bool :=
  match e.2 with
  | .wait other _ _ => e.1 = p ∧ other = condName
  | _ => false

/-- Between two processes nothing is left of the waits of the first. -/
structure System.Settled (s : System n σ) (condName : CondName) (p q : ProcessId n) : Prop where
  unlisted : (s.process q).lists condName p = false
  heard : ∀ raw ∈ s.pending p q, raw.carries .condWait condName = false ∧
    raw.carries .condWaitEnd condName = false
  confirmed : ∀ raw ∈ s.pending q p, raw.carries .condWaitEndConfirm condName = false

/-- A confirmation finds the wait whose end it confirms: before it, every earlier wait of the
process has counted one from that source, and the last end sent there is that of this wait. -/
structure Confirms (serialization : Serialization σ) (condName : CondName)
    (trace : Trace (System n σ) (Event n σ)) (s : System n σ) (p : ProcessId n)
    (packet : Packet n) : Prop where
  current : ∃ call id received, (s.process p).main = .confirming call id received ∧
    call.condName = condName ∧ packet.source ∉ received.senders
  subscribed : (s.process p).subscribed (.condWaitEndConfirm condName)
  accepted : ∃ outcome, (s.process p).dispatch serialization p packet = .ok outcome
  counted : (dispatchedAt packet.source p trace).countP (·.carries .condWaitEndConfirm condName) =
    waitsReturned condName p trace
  ended : (sentTo serialization p packet.source trace).countP (·.carries .condWaitEnd condName) =
    waitsReturned condName p trace + 1
  answered : (dispatchedAt p packet.source trace).countP (·.carries .condWaitEnd condName) =
    waitsReturned condName p trace + 1

theorem barrier_run (run : Run communicator serialization setup contract trace s)
    (condName : CondName) : (∀ p, Alone (s.pair condName p p)) ∧
      ∀ p q, p ≠ q → Sound (s.pair condName p q).mute := by
  apply pairs_run (P := fun pair => Sound pair.mute) run
  · intro pair sound outside
    cases sound with
    | outside _ signals answers unlisted open' =>
      exact .outside outside signals (by simp [Pair.mute, answers]) unlisted open' id
    | announced stage | known stage | announcedEnding stage | ending stage | acknowledging stage
    | acknowledged stage => cases outside.symm.trans stage
  · exact fun _ _ sound step => sound.mute_step step
  · exact fun _ _ _ _ _ _ _ _ _ sound forgotten _ => sound.mute_forgotten forgotten

theorem stage_of_outside {main : MainThread n σ} (outside : main.insideWait condName = false) :
    main.stage condName = .outside := by
  by_contra inside
  rw [inside_of_stage inside] at outside
  cases outside

theorem announce_iff : raw.signal condName = some .announce ↔ raw.carries .condWait condName = true := by
  rw [RawPacket.carries_iff]
  unfold RawPacket.signal
  cases raw.messageType <;> simp

theorem withdraw_iff_carries :
    raw.signal condName = some .withdraw ↔ raw.carries .condWaitEnd condName = true :=
  withdraw_iff.trans RawPacket.carries_iff.symm

theorem acknowledge_iff :
    raw.answer condName = some .acknowledge ↔ raw.carries .condWaitEndConfirm condName = true := by
  rw [RawPacket.carries_iff]
  unfold RawPacket.answer
  cases raw.messageType <;> simp

theorem settled_outside (run : Run communicator serialization setup contract trace s)
    (outside : (s.process p).main.insideWait condName = false) (q : ProcessId n) :
    s.Settled condName p q := by
  obtain ⟨alone, sound⟩ := barrier_run run condName
  have nothing : (s.pair condName p q).signals = [] ∧ (s.pair condName p q).mute.answers = [] ∧
      ¬(s.pair condName p q).listed := by
    by_cases own : p = q
    · subst own
      refine ⟨(alone p).signals, ?_, (alone p).unlisted⟩
      simp [Pair.mute, (alone p).answers]
    · exact (sound p q own).settled (stage_of_outside outside)
  obtain ⟨signals, answers, unlisted⟩ := nothing
  have quiet := List.filterMap_eq_nil_iff.1 signals
  have absent : p ∉ ((s.process q).waits condName).senders := unlisted
  refine ⟨decide_eq_false absent, fun raw member => ⟨?_, ?_⟩, fun raw member => ?_⟩
  · rw [← Bool.not_eq_true, ← announce_iff, quiet raw member]
    exact (Option.some_ne_none _).symm
  · rw [← Bool.not_eq_true, ← withdraw_iff_carries, quiet raw member]
    exact (Option.some_ne_none _).symm
  · rw [← Bool.not_eq_true, ← acknowledge_iff]
    intro confirms
    have listed : Answer.acknowledge ∈ (s.pair condName p q).mute.answers :=
      List.mem_filter.2 ⟨List.mem_filterMap.2 ⟨raw, member, confirms⟩, by decide⟩
    rw [answers] at listed
    cases listed

/-- An end that has been announced and whose wait has not returned. -/
def MainThread.credit (condName : CondName) (main : MainThread n σ) : ℕ :=
  if main.stage condName = .closing then 1 else 0

def endsIn (condName : CondName) (raws : List RawPacket) : ℕ :=
  (raws.filterMap (·.signal condName)).count .withdraw

def confirmationsIn (condName : CondName) (raws : List RawPacket) : ℕ :=
  (raws.filterMap (·.answer condName)).count .acknowledge

theorem endsIn_eq (raws : List RawPacket) :
    endsIn condName raws = raws.countP (·.carries .condWaitEnd condName) := by
  unfold endsIn
  rw [List.count_filterMap]
  refine List.countP_congr fun raw _ => ?_
  rw [beq_iff_eq, withdraw_iff_carries]

theorem confirmationsIn_eq (raws : List RawPacket) :
    confirmationsIn condName raws = raws.countP (·.carries .condWaitEndConfirm condName) := by
  unfold confirmationsIn
  rw [List.count_filterMap]
  refine List.countP_congr fun raw _ => ?_
  rw [beq_iff_eq, acknowledge_iff]

theorem endsIn_append (raws raws' : List RawPacket) :
    endsIn condName (raws ++ raws') = endsIn condName raws + endsIn condName raws' := by
  unfold endsIn
  rw [List.filterMap_append, List.count_append]

theorem confirmationsIn_append (raws raws' : List RawPacket) :
    confirmationsIn condName (raws ++ raws') =
      confirmationsIn condName raws + confirmationsIn condName raws' := by
  unfold confirmationsIn
  rw [List.filterMap_append, List.count_append]

theorem returned_stage
    (does : ThreadStep serialization self monitors (s.process self) action consumed process' sent)
    (returned : waitReturned condName self s (self, action) = true) :
    (s.process self).main.stage condName = .closing ∧ process'.main.stage condName = .outside := by
  unfold waitReturned at returned
  split at returned
  next call id received acts main =>
    subst acts
    cases does with
    | main does =>
      cases does with
      | configured called => cases called
      | notify called => rcases called with called | called <;> cases called
      | waitReturns =>
        rw [main]
        exact ⟨if_pos (of_decide_eq_true returned).2, rfl⟩
  next => cases returned

theorem returned_of_finished
    (does : ThreadStep serialization self monitors (s.process self) action none process' sent)
    (before : (s.process self).main.stage condName = .closing)
    (after : process'.main.stage condName = .outside) :
    waitReturned condName self s (self, action) = true := by
  obtain ⟨call, id, received, main, named⟩ := confirming_of_closing before
  cases does with
  | main does =>
    cases does with
    | waitReturns =>
      unfold waitReturned
      rw [main]
      exact decide_eq_true ⟨rfl, named⟩
    | configured _ here | assign here | lock here | unlock here | wait here | notify _ here
    | leave here | queue here | acquired here | announce here | stop here
    | retry here | wake here | subscribeConfirmations here | announceEnd here
    | sendNotify here | sendSync here | unlockMonitor here | answerDeferred here
    | released here => cases main.symm.trans here

theorem returned_other (other : self ≠ p) (action : Action n σ) :
    waitReturned condName p s (self, action) = false := by
  unfold waitReturned
  split
  · exact decide_eq_false fun both => other both.1
  · rfl

theorem ends_step
    (effect : WaitEffect self condName (s.process self) consumed process' sent)
    (does : ThreadStep serialization self monitors (s.process self) action consumed process' sent)
    (other : q ≠ self) :
    endsIn condName (addressed sent q) + (s.process self).main.credit condName =
      (if waitReturned condName self s (self, action) then 1 else 0) +
        process'.main.credit condName := by
  have member : q ∈ otherProcesses self := mem_otherProcesses.2 other
  have stays : (∀ envelope ∈ sent, envelope.packet.raw.signal condName = none) →
      process'.main.stage condName = (s.process self).main.stage condName →
      endsIn condName (addressed sent q) + (s.process self).main.credit condName =
        (if waitReturned condName self s (self, action) then 1 else 0) +
          process'.main.credit condName := by
    intro silent stage
    have unreturned : waitReturned condName self s (self, action) = false := by
      by_contra returned
      obtain ⟨before, after⟩ := returned_stage does (Bool.eq_true_of_not_eq_false returned)
      cases after.symm.trans (stage.trans before)
    simp only [endsIn, filterMap_addressed silent, unreturned, MainThread.credit, stage]
    rfl
  have moves : waitReturned condName self s (self, action) = true →
      (s.process self).main.stage condName = .closing := fun returned =>
    (returned_stage does returned).1
  cases effect with
  | quiet unread silent main =>
    exact stays (fun envelope member => (silent envelope member).1) main.stage
  | announced before after | withdrew before after =>
    have unreturned := mt moves (by rw [before]; decide)
    unfold endsIn MainThread.credit
    rw [addressed_single (if_pos rfl) member, if_neg unreturned, before, after]
    decide
  | finished before after =>
    unfold MainThread.credit
    rw [returned_of_finished does before after, before, after]
    rfl
  | heard _ main => exact stays nofun main.stage
  | signalled _ main => exact stays nofun main.stage
  | forgot _ main => exact stays (unsent (signal_none rfl nofun nofun)) main.stage
  | picked stage => exact stays nofun stage
  | notified stage => exact stays (unsent (signal_none rfl nofun nofun)) stage
  | confirmed _ stage => exact stays nofun stage

theorem confirmations_step
    (effect : WaitEffect self condName (s.process self) consumed process' sent) (p : ProcessId n) :
    confirmationsIn condName (addressed sent p) = endsIn condName (inboxFrom p consumed) := by
  have neither : (∀ envelope ∈ sent, envelope.packet.raw.answer condName ≠ some .acknowledge) →
      (∀ packet, consumed = some packet → packet.raw.signal condName ≠ some .withdraw) →
      confirmationsIn condName (addressed sent p) = endsIn condName (inboxFrom p consumed) := by
    intro unsaid unheard
    trans 0
    · refine List.count_eq_zero.2 fun confirms => ?_
      obtain ⟨raw, member, shows⟩ := List.mem_filterMap.1 confirms
      obtain ⟨envelope, listed, -, rfl⟩ := mem_addressed member
      exact unsaid envelope listed shows
    · refine (List.count_eq_zero.2 fun ends => ?_).symm
      obtain ⟨raw, member, shows⟩ := List.mem_filterMap.1 ends
      cases consumed with
      | none => cases member
      | some packet =>
        obtain ⟨-, rfl⟩ := mem_inboxFrom.1 member
        exact unheard packet rfl shows
  have single : ∀ {packet : Packet n} {recipients : Finset (ProcessId n)},
      packet.raw.answer condName ≠ some .acknowledge →
      ∀ envelope ∈ [(⟨packet, recipients⟩ : Envelope n)],
        envelope.packet.raw.answer condName ≠ some .acknowledge := by
    intro packet recipients differs envelope member
    rwa [List.mem_singleton.1 member]
  cases effect with
  | quiet unread silent =>
    refine neither (fun envelope member => ?_) fun packet same => ?_
    · rw [(silent envelope member).2]
      exact (Option.some_ne_none _).symm
    · rw [(unread packet same).1]
      exact (Option.some_ne_none _).symm
  | announced | withdrew =>
    refine neither (single ?_) (by simp)
    simp [RawPacket.answer, Packet.raw]
  | finished | picked => exact neither (List.forall_mem_nil _) (by simp)
  | heard read =>
    refine neither (List.forall_mem_nil _) fun _ same => ?_
    cases same
    rw [read]
    decide
  | @forgot _ packet _ read =>
    unfold confirmationsIn endsIn
    by_cases source : packet.source = p
    · subst source
      rw [addressed_single (if_pos rfl) (Finset.mem_singleton_self _), inbox_single read]
      rfl
    · have elsewhere : p ∉ ({packet.source} : Finset (ProcessId n)) :=
        fun member => source (Finset.mem_singleton.1 member).symm
      rw [addressed_singleton, if_neg elsewhere, inbox_other source]
      rfl
  | notified =>
    refine neither (single ?_) (by simp)
    simp [RawPacket.answer, Packet.raw]
  | signalled read | confirmed read =>
    refine neither (List.forall_mem_nil _) fun _ same => ?_
    cases same
    rw [signal_of_answer read]
    exact (Option.some_ne_none _).symm

structure Balanced (serialization : Serialization σ) (condName : CondName)
    (trace : Trace (System n σ) (Event n σ)) (s : System n σ) (p q : ProcessId n) : Prop where
  ends : endsIn condName (sentTo serialization p q trace) =
    waitsReturned condName p trace + (s.process p).main.credit condName
  confirmations : confirmationsIn condName (sentTo serialization q p trace) =
    endsIn condName (dispatchedAt p q trace)

theorem waitsReturned_cons (p : ProcessId n) :
    waitsReturned condName p ((s, e) :: trace) =
      waitsReturned condName p trace + if waitReturned condName p s e then 1 else 0 :=
  List.countP_cons

theorem balanced_run (run : Run .simple serialization setup contract trace s) (different : p ≠ q) :
    Balanced serialization condName trace s p q := by
  apply run.history_invariant (I := fun trace s => Balanced serialization condName trace s p q)
  · rintro _ rfl
    exact ⟨rfl, rfl⟩
  · intro trace s e s' run balanced may taken
    cases systemStep (wellFormed_run run) taken with
    | @receive self source raw rest listening head =>
      have main : (Function.update s.process self ((s.process self).receive .simple source raw)
          p).main.credit condName = (s.process p).main.credit condName :=
        read_update (·.main.credit condName) (by rfl) p
      constructor
      · rw [sentTo, chronicle, sentBy_receive, List.append_nil, waitsReturned_cons, main]
        exact balanced.ends
      · rw [sentTo, chronicle, sentBy_receive, List.append_nil]
        exact balanced.confirmations.trans (congrArg _ (List.append_nil _).symm)
    | updateTimestamp updating => exact absurd updating (not_updating run _ _)
    | @acts self action consumed process' sent does =>
      have effect : WaitEffect self condName (s.process self) consumed process' sent :=
        waitEffect (wellFormed_run run self) does
      constructor
      · have sofar := balanced.ends
        rw [sentTo] at sofar
        rw [sentTo, chronicle, sentBy_acts does taken, endsIn_append, sofar, waitsReturned_cons]
        by_cases mine : p = self
        · subst mine
          have step := ends_step effect does different.symm
          simp only [sentFrom, if_true, System.update, Function.update_self]
          omega
        · have others : (s.update self (process', sent)).process p = s.process p :=
            s.update_other mine ..
          rw [sentFrom, if_neg mine, returned_other (Ne.symm mine), others]
          rfl
      · have sofar := balanced.confirmations
        rw [sentTo, dispatchedAt] at sofar
        rw [sentTo, dispatchedAt, chronicle, chronicle, sentBy_acts does taken,
          dispatchedBy_acts does, confirmationsIn_append, endsIn_append, sofar]
        by_cases mine : q = self
        · subst mine
          simp only [sentFrom, dispatchedFrom, if_true, confirmations_step effect p]
        · rw [sentFrom, dispatchedFrom, if_neg mine, if_neg mine]
          rfl

theorem inside_step (wf : s.WellFormed setup)
    (taken : step communicator serialization s e = some s')
    (inside : (s'.process p).main.insideWait condName = true) :
    (s.process p).main.insideWait condName = true ∨ waitsAgain condName p e = true := by
  cases systemStep wf taken with
  | receive | updateTimestamp =>
    exact .inl ((read_update (·.main.insideWait condName) (by rfl) p).symm.trans inside)
  | @acts self action consumed process' sent does =>
    by_cases mine : p = self
    · subst mine
      have after := s.update_own p process' sent
      rw [after] at inside
      obtain ⟨call, waits, named⟩ := inside_iff.1 inside
      rcases waitCall_step does waits with already | rfl
      · exact .inl (inside_iff.2 ⟨call, already, named⟩)
      · exact .inr (decide_eq_true ⟨rfl, named⟩)
    · have others : (s.update self (process', sent)).process p = s.process p :=
        s.update_other mine ..
      exact .inl (others ▸ inside)

theorem outside_of_return
    (taken : step communicator serialization s e = some s')
    (returned : waitReturned condName p s e = true) :
    (s'.process p).main.insideWait condName = false := by
  obtain ⟨self, action⟩ := e
  unfold waitReturned at returned
  split at returned
  next call id received acts main =>
    simp only at acts
    subst acts
    obtain ⟨rfl, -⟩ := of_decide_eq_true returned
    obtain ⟨outcome, returns, rfl⟩ := step_act (by intro source; simp) taken
    simp only [Process.act, Process.waitReturns, main] at returns
    split_ifs at returns
    cases returns
    rw [System.update_own]
    rfl
  next => cases returned

theorem outside_run (run : Run communicator serialization setup contract trace s)
    (split : trace = later ++ (s₀, e) :: earlier)
    (returned : waitReturned condName p s₀ e = true)
    (until' : ∀ entry ∈ later, waitsAgain condName p entry.2 = false) :
    (s.process p).main.insideWait condName = false := by
  subst split
  induction later generalizing s with
  | nil =>
    cases run with
    | next run may taken => exact outside_of_return taken returned
  | cons entry later ih =>
    cases run with
    | next run may taken =>
      have outside := ih (fun entry member => until' entry (List.mem_cons_of_mem _ member)) run
      rw [← Bool.not_eq_true]
      intro inside
      rcases inside_step (wellFormed_run run) taken inside with already | again
      · rw [outside] at already
        cases already
      · rw [until' _ (List.mem_cons_self ..)] at again
        cases again

theorem confirmation_accepted (run : Run communicator serialization setup contract trace s)
    {call : WaitCall σ} (ends : (s.process p).main.endingCall = some call)
    (named : call.condName = packet.message) (type : packet.messageType = .condWaitEndConfirm) :
    (s.process p).subscribed (.condWaitEndConfirm packet.message) ∧
      ∃ outcome, (s.process p).dispatch serialization p packet = .ok outcome := by
  have wf := wellFormed_run run p
  constructor
  · have listed := main_listeners (s.process p).main .condWaitEndConfirm
    simp only [ends, named, Option.map_some, Option.toList_some] at listed
    have member : Subscription.condWaitEndConfirm packet.message ∈
        (s.process p).main.subscriptions.map (·.2) :=
      (List.mem_filter.1 (listed ▸ List.mem_singleton_self _)).1
    unfold Process.subscribed
    rw [wf.subscriptions, List.map_append]
    exact List.mem_append_right _ member
  · rw [dispatch_eq wf (by rw [type]; exact nofun)]
    simp only [type, Process.listener, ends, Option.map_some, Subscription.deliver,
      Subscription.accepts, Subscription.callback, named, decide_true, and_self]
    exact ⟨_, rfl⟩

theorem confirms_run (run : Run .simple serialization setup contract trace s)
    (received : (s.process p).receiving = .received packet)
    (type : packet.messageType = .condWaitEndConfirm) (named : packet.message = condName) :
    Confirms serialization condName trace s p packet := by
  obtain ⟨alone, sound⟩ := barrier_run run condName
  have confirms : packet.raw.answer condName = some .acknowledge :=
    acknowledge_iff.2 (RawPacket.carries_iff.2 ⟨type, named⟩)
  have listed : Answer.acknowledge ∈ (s.pair condName p packet.source).answers :=
    List.mem_filterMap.2 ⟨packet.raw, received_pending received, confirms⟩
  have own : p ≠ packet.source := by
    intro own
    rw [← own, (alone p).answers] at listed
    cases listed
  obtain ⟨closing, signals, single, open'⟩ :=
    (sound p packet.source own).acknowledging' (List.mem_filter.2 ⟨listed, by decide⟩)
  obtain ⟨call, id, confirmations, main, same⟩ := confirming_of_closing closing
  have balanced : Balanced serialization condName trace s p packet.source := balanced_run run own
  have ended : endsIn condName (sentTo serialization p packet.source trace) =
      waitsReturned condName p trace + 1 := by
    rw [balanced.ends, MainThread.credit, if_pos]
    exact closing
  -- all ends have arrived, and the confirmation of the last is still here
  have answered : endsIn condName (dispatchedAt p packet.source trace) =
      endsIn condName (sentTo serialization p packet.source trace) := by
    have quiet : endsIn condName (s.pending p packet.source) = 0 := congrArg (List.count _) signals
    rw [← fifo run p packet.source, endsIn_append, quiet, Nat.add_zero]
  have counted : confirmationsIn condName (dispatchedAt packet.source p trace) + 1 =
      endsIn condName (dispatchedAt p packet.source trace) := by
    have one : confirmationsIn condName (s.pending packet.source p) = 1 := by
      rw [← single]
      exact (List.count_filter (by decide)).symm
    rw [← balanced.confirmations, ← fifo run packet.source p, confirmationsIn_append, one]
  have ending : (s.process p).main.endingCall = some call := by
    rw [main]
    rfl
  have accepted := confirmation_accepted run ending (same.trans named.symm) type
  refine ⟨⟨call, id, confirmations, main, same, ?_⟩, named ▸ accepted.1, accepted.2, ?_, ?_, ?_⟩
  · intro already
    apply open'
    change packet.source ∈ (s.process p).main.confirmations condName
    rw [main, MainThread.confirmations, if_pos same]
    exact already
  · rw [← confirmationsIn_eq]
    omega
  · rw [← endsIn_eq, ended]
  · rw [← endsIn_eq, answered, ended]

/-- After a return from a wait, and until the next one, nobody lists the process and nothing
of its waits is on its way. A confirmation always finds its subscription, and the wait that
it confirms. -/
theorem wait_barrier (run : Run .simple serialization setup contract trace s)
    (condName : CondName) (p : ProcessId n) :
    (∀ later s₀ e earlier, trace = later ++ (s₀, e) :: earlier →
      waitReturned condName p s₀ e = true →
      (∀ entry ∈ later, waitsAgain condName p entry.2 = false) →
      ∀ q, s.Settled condName p q) ∧
    ∀ packet, (s.process p).receiving = .received packet →
      packet.messageType = .condWaitEndConfirm → packet.message = condName →
      Confirms serialization condName trace s p packet := by
  refine ⟨fun later s₀ e earlier split returned until' q => ?_, fun packet => confirms_run run⟩
  exact settled_outside run (outside_run run split returned until') q

theorem wait_barrier_two : ∃ trace s, Run .simple unary (shared 2) (Obeying acquiresOnce) trace s ∧
    s.Settled news 0 1 ∧ ∃ packet, (s.process 1).receiving = .received packet ∧
      Confirms unary news trace s 1 packet := by
  obtain ⟨trace, s, run, reached⟩ := exists_run .simple unary (shared 2) (Obeying acquiresOnce)
    [[(0, .lock board.1), (0, .queue)], deliver 0 1, deliver 1 0, [(0, .acquired),
      (0, .wait news board.1 (· == 0)), (0, .announce)], deliver 0 1, [(0, .evaluate),
      (0, .subscribeConfirmations), (0, .announceEnd)], deliver 0 1, deliver 1 0,
      [(0, .waitReturns), (0, .unlock board.1), (0, .released), (1, .lock board.1), (1, .queue)],
      deliver 1 0, deliver 0 1, [(1, .acquired), (1, .wait news board.1 (· == 0)), (1, .announce)],
      deliver 1 0, [(1, .evaluate), (1, .subscribeConfirmations), (1, .announceEnd)], deliver 1 0,
      [(1, .receive 0)]].flatten
    (fun (trace : Trace (System 2 ℕ) (Event 2 ℕ)) s =>
      ((trace.dropWhile fun entry => !waitReturned news 0 entry.1 entry.2).head?.any
        fun entry => waitReturned news 0 entry.1 entry.2) = true ∧
      ((trace.takeWhile fun entry => !waitReturned news 0 entry.1 entry.2).all
        fun entry => !waitsAgain news 0 entry.2) = true ∧
      (s.process 1).receiving = .received ⟨16, 0, .condWaitEndConfirm, news⟩)
    (by decide +kernel)
  obtain ⟨returned, once, received⟩ := of_decide_eq_true reached
  obtain ⟨entry, first, returns⟩ := (Option.any_eq_true ..).1 returned
  refine ⟨trace, s, run, ?_, _, received, (wait_barrier run news 1).2 _ received rfl rfl⟩
  obtain ⟨earlier, rest⟩ := List.head?_eq_some_iff.1 first
  have split' := (List.takeWhile_append_dropWhile
    (p := fun entry => !waitReturned news 0 entry.1 entry.2) (l := trace)).symm
  rw [rest] at split'
  refine (wait_barrier run news 0).1 _ entry.1 entry.2 earlier split' returns (fun entry member => ?_) 1
  simpa using List.all_eq_true.1 once entry member

end DistributedMonitor
