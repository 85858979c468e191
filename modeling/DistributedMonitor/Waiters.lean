import Mathlib.Data.List.Nodup
import DistributedMonitor.Handover
import DistributedMonitor.Barrier

/-! The waits that a process lists. While a condition variable keeps to one mutex the waits
are announced one after the other, each with a stamp larger than the last, so no two of them
collapse and they are notified in the order in which they were called. -/

namespace DistributedMonitor
open Library TicketExclusion StampedSet

variable {n : ℕ} {σ : Type} {communicator : Communicator} {serialization : Serialization σ}
  {setup : Setup n σ} {contract : Permission (System n σ) (Event n σ)}
  {trace : Trace (System n σ) (Event n σ)} {s s' : System n σ} {e : Event n σ}
  {condName : CondName} {mutexName : MutexName} {self p q : ProcessId n}
  {monitors : List MonitorName} {process process' : Process n σ} {action : Action n σ}
  {consumed : Option (Packet n)} {sent : List (Envelope n)} {packet : Packet n}
  {permanent : List (SubscriptionId × Subscription)}

def waitsUnder (condName : CondName) (mutexName : MutexName) (_ : System n σ) (e : Event n σ) :
    Bool :=
  match e.2 with
  | .wait other mutex _ => other ≠ condName ∨ mutex = mutexName
  | _ => true

def waitCalledBy (condName : CondName) (_ : System n σ) (e : Event n σ) : List (ProcessId n) :=
  match e.2 with
  | .wait other _ _ => if other = condName then [e.1] else []
  | _ => []

def waitCalls (condName : CondName) (trace : Trace (System n σ) (Event n σ)) : List (ProcessId n) :=
  chronicle (waitCalledBy condName) trace

def announcedBy (condName : CondName) (s : System n σ) (e : Event n σ) : List (Packet n) :=
  match e.2, (s.process e.1).main with
  | .announce, .announcing call =>
      if call.condName = condName then
        [⟨(s.process e.1).currentLamportTime + 1, e.1, .condWait, condName⟩]
      else []
  | _, _ => []

def announcements (condName : CondName) (trace : Trace (System n σ) (Event n σ)) : List (Packet n) :=
  chronicle (announcedBy condName) trace

/-- Whose announcements have been dispatched at a process. -/
def waitersAt (condName : CondName) (q : ProcessId n) (trace : Trace (System n σ) (Event n σ)) :
    Finset (ProcessId n) :=
  Finset.univ.filter fun p => (dispatchedAt p q trace).any (·.carries .condWait condName)

theorem mem_waitersAt : p ∈ waitersAt condName q trace ↔
    ∃ raw ∈ dispatchedAt p q trace, raw.carries .condWait condName = true := by
  simp [waitersAt]

theorem announcedBy_none (other : action ≠ .announce) :
    announcedBy condName s (self, action) = [] := by
  unfold announcedBy
  split
  next call acts main => exact absurd acts other
  next => rfl

theorem mem_announcedBy (member : packet ∈ announcedBy condName s e) : e.2 = .announce ∧
    (∃ call, (s.process e.1).main = .announcing call ∧ call.condName = condName) ∧
    packet = ⟨(s.process e.1).currentLamportTime + 1, e.1, .condWait, condName⟩ := by
  unfold announcedBy at member
  split at member
  next call acts main =>
    split_ifs at member with named
    · exact ⟨acts, ⟨call, main, named⟩, List.mem_singleton.1 member⟩
    · cases member
  next => cases member

theorem filter_announced
    (does : ThreadStep serialization self monitors (s.process self) action consumed process' sent)
    (q : ProcessId n) : (addressed sent q).filter (·.carries .condWait condName) =
      if q = self then [] else (announcedBy condName s (self, action)).map (·.raw) := by
  have quiet : (∀ envelope ∈ sent, envelope.packet.messageType ≠ .condWait) → action ≠ .announce →
      (addressed sent q).filter (·.carries .condWait condName) =
        if q = self then [] else (announcedBy condName s (self, action)).map (·.raw) := by
    intro silent other
    rw [announcedBy_none other, List.map_nil, ite_self]
    refine List.filter_eq_nil_iff.2 fun raw member carries => ?_
    obtain ⟨envelope, listed, -, rfl⟩ := mem_addressed member
    exact silent envelope listed (RawPacket.carries_iff.1 carries).1
  cases does with
  | main does =>
    cases does with
    | announce here =>
      rw [addressed_singleton]
      by_cases mine : q = self
      · subst mine
        simp [otherProcesses]
      · rw [if_pos (mem_otherProcesses.2 mine), if_neg mine]
        simp only [announcedBy, here, RawPacket.carries, Packet.raw]
        split_ifs with named <;> simp [named]
    | configured called => exact quiet (List.forall_mem_nil _) (by rintro rfl; cases called)
    | notify called => exact quiet (List.forall_mem_nil _) (by rcases called with rfl | rfl <;> simp)
    | queue | answerDeferred | announceEnd | sendNotify | sendSync => exact quiet (by simp) (by simp)
    | _ => exact quiet (List.forall_mem_nil _) (by simp)
  | dispatch received free dispatches does =>
    cases does with
    | agreed | ended => exact quiet (by simp) (by simp)
    | _ => exact quiet (List.forall_mem_nil _) (by simp)

theorem sentTo_announced (condName : CondName)
    (run : Run .simple serialization setup contract trace s)
    (p q : ProcessId n) : (sentTo serialization p q trace).filter (·.carries .condWait condName) =
      if p = q then []
      else ((announcements condName trace).filter (·.source = p)).map (·.raw) := by
  apply run.history_invariant (I := fun trace s =>
    (sentTo serialization p q trace).filter (·.carries .condWait condName) =
      if p = q then []
      else ((announcements condName trace).filter (·.source = p)).map (·.raw))
  · rintro _ rfl
    exact (ite_self _).symm
  · intro trace s e s' run before may taken
    rw [sentTo] at before
    rw [sentTo, announcements, chronicle, chronicle, List.filter_append, before]
    have added : (sentBy serialization p q s e).filter (·.carries .condWait condName) =
        if p = q then []
        else ((announcedBy condName s e).filter (·.source = p)).map (·.raw) := by
      cases systemStep (wellFormed_run run) taken with
      | @receive self source => simp [sentBy_receive, announcedBy]
      | updateTimestamp updating => exact absurd updating (not_updating run _ _)
      | @acts self action consumed process' sent does =>
        rw [sentBy_acts does taken, sentFrom]
        have origin : ∀ packet ∈ announcedBy condName s (self, action), packet.source = self :=
          fun packet member => (mem_announcedBy member).2.2 ▸ rfl
        by_cases mine : p = self
        · subst mine
          rw [if_pos rfl, filter_announced does, List.filter_eq_self.2 fun packet member =>
            decide_eq_true (origin packet member)]
          simp only [eq_comm]
        · rw [if_neg mine, List.filter_nil, List.filter_eq_nil_iff.2 fun packet member same =>
            mine ((of_decide_eq_true same).symm.trans (origin packet member))]
          exact (ite_self _).symm
    rw [added]
    split_ifs
    · rfl
    · rw [List.filter_append, List.map_append]
      rfl

theorem announced_own (run : Run .simple serialization setup contract trace s) :
    ∀ packet ∈ announcements condName trace, packet.messageType = .condWait ∧
      packet.message = condName ∧
      packet.lamportTime ≤ (s.process packet.source).currentLamportTime := by
  apply run.history_invariant (I := fun trace s => ∀ packet ∈ announcements condName trace,
    packet.messageType = .condWait ∧ packet.message = condName ∧
      packet.lamportTime ≤ (s.process packet.source).currentLamportTime)
  · rintro _ rfl packet member
    cases member
  · intro trace s e s' run before may taken packet member
    rcases List.mem_append.1 member with old | new
    · obtain ⟨type, named, past⟩ := before packet old
      exact ⟨type, named, past.trans (clock_step (wellFormed_run run) taken _)⟩
    · obtain ⟨acts, ⟨call, main, named⟩, rfl⟩ := mem_announcedBy new
      obtain ⟨self, action⟩ := e
      simp only at acts main
      subst acts
      obtain ⟨outcome, sends, rfl⟩ := step_act (by intro source; simp) taken
      simp only [Process.act, Process.announce, main] at sends
      cases sends
      refine ⟨rfl, rfl, ?_⟩
      simp only [System.update, Function.update_self]
      exact le_rfl

section
variable (under : ∀ trace s (e : Event n σ), contract trace s e →
  waitsUnder condName mutexName s e = true)
include under

theorem waiting_under (run : Run communicator serialization setup contract trace s)
    {call : WaitCall σ} (waits : (s.process p).main.waitCall = some call)
    (named : call.condName = condName) : call.mutex = mutexName := by
  have always : ∀ p call, (s.process p).main.waitCall = some call → call.condName = condName →
      call.mutex = mutexName := by
    refine process_run (P := fun process => ∀ call, process.main.waitCall = some call →
      call.condName = condName → call.mutex = mutexName) run ?_ ?_ ?_
    · exact fun p => nofun
    · exact fun process clock receiving before => before
    · intro trace s self action consumed process' sent run may before does call waits named
      rcases waitCall_step does waits with already | rfl
      · exact before call already named
      · exact (of_decide_eq_true (under _ _ _ may)).resolve_left fun other => other named
  exact always p call waits named

theorem announcing_holds (run : Run communicator serialization setup contract trace s)
    {call : WaitCall σ} (main : (s.process p).main = .announcing call)
    (named : call.condName = condName) :
    ∃ time, (s.process p).phase mutexName = .holding time := by
  have mutex := waiting_under under run (by rw [main]; rfl) named
  have owned := (owning_run run p).main
  rw [main] at owned
  refine holding_of_owned (owning_run run p) (holds_iff.2 ⟨mutex ▸ owned, ?_⟩) ?_ <;>
    rw [main] <;> exact nofun

/-- Announcements are sent in critical sections and arrive ahead of the agreement to the
next, so whoever announces has dispatched all that were sent before. -/
theorem announced_before (run : Run .simple serialization setup contract trace s)
    {call : WaitCall σ} (main : (s.process p).main = .announcing call)
    (named : call.condName = condName) (member : packet ∈ announcements condName trace) :
    packet.lamportTime ≤ (s.process p).currentLamportTime := by
  obtain ⟨type, name, past⟩ := announced_own run packet member
  by_cases own : packet.source = p
  · exact own ▸ past
  · let kind : Kind := fun messageType message => messageType = .condWait ∧ message = condName
    have guard : Guarded mutexName kind s := by
      apply guarded_run run
      intro trace s self action consumed process' sent run may does recipient raw member announces
      have listed : raw ∈ (addressed sent recipient).filter (·.carries .condWait condName) :=
        List.mem_filter.2 ⟨member, RawPacket.carries_iff.2 announces⟩
      rw [filter_announced does] at listed
      split_ifs at listed with same
      · cases listed
      · obtain ⟨packet, announced, -⟩ := List.mem_map.1 listed
        obtain ⟨-, ⟨call, main, named⟩, -⟩ := mem_announcedBy announced
        exact ⟨same, announcing_holds under run main named⟩
    obtain ⟨time, holding⟩ := announcing_holds under run main named
    have sent : packet.raw ∈ sentTo serialization packet.source p trace := by
      have listed : packet.raw ∈
          (sentTo serialization packet.source p trace).filter (·.carries .condWait condName) := by
        rw [sentTo_announced _ run, if_neg own]
        exact List.mem_map_of_mem (List.mem_filter.2 ⟨member, decide_eq_true rfl⟩)
      exact (List.mem_filter.1 listed).1
    rw [← fifo run] at sent
    rcases List.mem_append.1 sent with dispatched | pending
    · exact (dispatched_clock run dispatched).le
    · exact absurd ⟨type, name⟩ (guard.holding p time holding packet.source _ pending)

theorem announcements_sorted (run : Run .simple serialization setup contract trace s) :
    (announcements condName trace).Pairwise fun first later =>
      first.lamportTime < later.lamportTime := by
  apply run.history_invariant (I := fun trace _ => (announcements condName trace).Pairwise
    fun first later => first.lamportTime < later.lamportTime)
  · rintro _ rfl
    exact .nil
  · intro trace s e s' run before may taken
    refine List.pairwise_append.2 ⟨before, ?_, ?_⟩
    · unfold announcedBy
      split
      · split_ifs
        · exact List.pairwise_singleton _ _
        · exact .nil
      · exact .nil
    · intro first old later new
      obtain ⟨-, ⟨call, main, named⟩, rfl⟩ := mem_announcedBy new
      exact Nat.lt_succ_of_le (announced_before under run main named old)

theorem announced_unique (run : Run .simple serialization setup contract trace s)
    {first second : Packet n} (here : first ∈ announcements condName trace)
    (there : second ∈ announcements condName trace)
    (stamps : first.lamportTime = second.lamportTime) : first = second := by
  have distinct : ((announcements condName trace).map (·.lamportTime)).Nodup :=
    List.pairwise_map.2 ((announcements_sorted under run).imp fun less => less.ne)
  exact List.inj_on_of_nodup_map distinct here there stamps

end

theorem mem_place_self {packets : List (Packet n)}
    (alone : ∀ other ∈ packets, other.lamportTime = packet.lamportTime → other = packet) :
    packet ∈ StampedSet.place packet packets := by
  induction packets with
  | nil => exact List.mem_singleton_self _
  | cons other rest ih =>
    simp only [StampedSet.place]
    split_ifs with less greater
    · exact List.mem_cons_self ..
    · exact List.mem_cons_of_mem _ (ih fun other member => alone other (List.mem_cons_of_mem _ member))
    · simp only [Packet.before, decide_eq_true_eq] at less greater
      have equal := le_antisymm (not_lt.1 less) (not_lt.1 greater)
      rw [alone other (List.mem_cons_self ..) equal]
      exact List.mem_cons_self ..

theorem waits_step (condName : CondName) (wf : process.WellFormed permanent)
    (does : ThreadStep serialization self monitors process action consumed process' sent) :
    (process'.waits condName = process.waits condName ∧ ∀ packet, consumed = some packet →
        packet.raw.carries .condWait condName = false) ∨
      ∃ packet, consumed = some packet ∧ packet.message = condName ∧
        (packet.messageType = .condWaitEnd ∨ packet.messageType = .condWait ∧
          process'.waits condName = (process.waits condName).insert packet) := by
  have unheard : ∀ packet : Packet n, packet.raw.signal condName = none →
      packet.raw.carries .condWait condName = false := by
    intro packet silent
    rw [← Bool.not_eq_true, ← announce_iff, silent]
    exact (Option.some_ne_none _).symm
  have effect : WaitEffect self condName process consumed process' sent := waitEffect wf does
  cases effect with
  | @heard _ packet read =>
    obtain ⟨type, named⟩ : packet.messageType = .condWait ∧ packet.message = condName :=
      RawPacket.carries_iff.1 (announce_iff.1 read)
    refine .inr ⟨packet, rfl, named, .inr ⟨type, ?_⟩⟩
    cases does with
    | dispatch _ _ _ does =>
      cases does with
      | waiting =>
        subst named
        simp only [Process.waits, Process.recordWait, AList.lookup_insert, Option.getD_some]
      | deferred type' | early type' | counted type' | notified type' | confirmed type'
      | synced type' => cases type.symm.trans type'
  | @forgot _ packet _ read =>
    obtain ⟨type, named⟩ := withdraw_iff.1 read
    exact .inr ⟨packet, rfl, named, .inl type⟩
  | quiet unread _ _ waits =>
    exact .inl ⟨waits, fun packet same => unheard packet (unread packet same).1⟩
  | signalled read _ waits | confirmed read _ _ _ waits =>
    refine .inl ⟨waits, fun packet same => ?_⟩
    cases same
    exact unheard _ (signal_of_answer read)
  | announced _ _ _ _ waits | withdrew _ _ _ _ waits | finished _ _ _ _ _ _ _ waits
  | picked _ _ _ waits | notified _ _ _ waits => exact .inl ⟨waits, by simp⟩

def Heard (condName : CondName) (q : ProcessId n) (trace : Trace (System n σ) (Event n σ))
    (packet : Packet n) : Prop :=
  packet.raw ∈ dispatchedAt packet.source q trace ∧ packet.messageType = .condWait ∧
    packet.message = condName

theorem announced_of_heard (run : Run .simple serialization setup contract trace s)
    (heard : Heard condName q trace packet) : packet ∈ announcements condName trace := by
  obtain ⟨dispatched, type, named⟩ := heard
  have listed : packet.raw ∈
      (sentTo serialization packet.source q trace).filter (·.carries .condWait condName) :=
    List.mem_filter.2 ⟨(dispatched_isPrefix run packet.source q).subset dispatched,
      RawPacket.carries_iff.2 ⟨type, named⟩⟩
  rw [sentTo_announced _ run] at listed
  split_ifs at listed with own
  · cases listed
  · obtain ⟨other, member, same⟩ := List.mem_map.1 listed
    obtain ⟨announced, source⟩ := List.mem_filter.1 member
    have equal : other = packet := by
      rw [← toPacket_raw other, ← toPacket_raw packet, same, of_decide_eq_true source]
    exact equal ▸ announced

theorem heard_acts
    (does : ThreadStep serialization self monitors (s.process self) action consumed process' sent) :
    Heard condName q ((s, (self, action)) :: trace) packet ↔ Heard condName q trace packet ∨
      q = self ∧ consumed = some packet ∧ packet.messageType = .condWait ∧
        packet.message = condName := by
  unfold Heard
  rw [dispatchedAt, chronicle, dispatchedBy_acts does, List.mem_append, dispatchedFrom]
  by_cases mine : q = self
  · subst mine
    rw [if_pos rfl]
    cases consumed with
    | none => simp [inboxFrom, dispatchedAt]
    | some other =>
      have same : other.source = packet.source ∧ packet.raw = other.raw ↔ other = packet := by
        constructor
        · rintro ⟨source, raw⟩
          rw [← toPacket_raw other, ← toPacket_raw packet, raw, source]
        · rintro rfl
          exact ⟨rfl, rfl⟩
      rw [mem_inboxFrom, same, Option.some.injEq, dispatchedAt]
      tauto
  · simp [mine, dispatchedAt]

theorem listed_iff (under : ∀ trace s (e : Event n σ), contract trace s e →
      waitsUnder condName mutexName s e = true)
    (run : Run .simple serialization setup contract trace s)
    (unended : ∀ p, ∀ raw ∈ dispatchedAt p q trace, raw.carries .condWaitEnd condName = false)
    (packet : Packet n) :
    packet ∈ ((s.process q).waits condName).packets ↔ Heard condName q trace packet := by
  revert packet unended
  apply run.history_invariant (I := fun trace s =>
    (∀ p, ∀ raw ∈ dispatchedAt p q trace, raw.carries .condWaitEnd condName = false) →
      ∀ packet, packet ∈ ((s.process q).waits condName).packets ↔ Heard condName q trace packet)
  · rintro _ rfl - packet
    exact ⟨nofun, fun heard => nomatch heard.1⟩
  · intro trace s e s' run before may taken unended
    have listed := before fun p raw member => unended p raw (List.mem_append_left _ member)
    cases systemStep (wellFormed_run run) taken with
    | @receive self source raw rest listening head =>
      have waits : (Function.update s.process self ((s.process self).receive .simple source raw)
          q).waits condName = (s.process q).waits condName := read_update (·.waits condName) (by rfl) q
      intro packet
      rw [waits, listed]
      unfold Heard
      rw [dispatchedAt, dispatchedAt, chronicle, dispatchedBy, List.append_nil]
    | updateTimestamp updating => exact absurd updating (not_updating run _ _)
    | @acts self action consumed process' sent does =>
      intro packet
      rw [heard_acts does]
      by_cases mine : q = self
      · subst mine
        have after := s.update_own q process' sent
        rw [after]
        rcases waits_step condName (wellFormed_run run q) does with
          ⟨waits, unheard⟩ | ⟨other, rfl, named, ends | ⟨type, waits⟩⟩
        · rw [waits, listed]
          refine ⟨.inl, fun heard => heard.resolve_right ?_⟩
          rintro ⟨-, same, type, named⟩
          have silent := unheard packet same
          rw [RawPacket.carries_iff.2 ⟨type, named⟩] at silent
          cases silent
        · have dispatched : other.raw ∈ dispatchedAt other.source q ((s, (q, action)) :: trace) := by
            rw [dispatchedAt, chronicle, dispatchedBy_acts does, dispatchedFrom, if_pos rfl]
            exact List.mem_append_right _ (mem_inboxFrom.2 ⟨rfl, rfl⟩)
          have silent := unended other.source other.raw dispatched
          rw [RawPacket.carries_iff.2 ⟨ends, named⟩] at silent
          cases silent
        · have run' := run.next may taken
          have heard : Heard condName q ((s, (q, action)) :: trace) other :=
            (heard_acts does).2 (.inr ⟨rfl, rfl, type, named⟩)
          rw [waits, StampedSet.insert]
          constructor
          · intro placed
            rcases mem_place placed with rfl | old
            · exact .inr ⟨rfl, rfl, type, named⟩
            · exact .inl ((listed packet).1 old)
          · rintro (old | ⟨-, same, -⟩)
            · exact mem_place_of_mem other ((listed packet).2 old)
            · cases same
              refine mem_place_self fun present member stamps => ?_
              have old : Heard condName q ((s, (q, action)) :: trace) present :=
                (heard_acts does).2 (.inl ((listed present).1 member))
              exact announced_unique under run' (announced_of_heard run' old)
                (announced_of_heard run' heard) stamps
      · have others : (s.update self (process', sent)).process q = s.process q :=
          s.update_other mine ..
        rw [others, listed]
        exact ⟨.inl, fun heard => heard.resolve_right fun both => mine both.1⟩

theorem announcing_origin {call : WaitCall σ}
    (does : ThreadStep serialization self monitors process action consumed process' sent)
    (announces : process'.main = .announcing call) : process.main = .announcing call ∨
      process.main = .running ∧ action = .wait call.condName call.mutex call.predicate := by
  cases does with
  | main does =>
    cases does with
    | configured | assign => exact .inl announces
    | unlock | retry | unlockMonitor =>
      simp only [Process.unlock] at announces
      split_ifs at announces
      cases announces
    | notify _ _ _ picked =>
      rcases picked with rfl | ⟨recipients, rfl, -⟩
      · exact .inl announces
      · cases announces
    | wait here =>
      cases announces
      exact .inr ⟨here, rfl⟩
    | @acquired name id received caller | @released name unanswered caller =>
      cases caller <;> cases announces
    | _ => cases announces
  | dispatch _ _ _ does =>
    left
    cases does with
    | early | counted => cases announces
    | notified =>
      cases here : process.main with
      | blocked =>
        simp only [here, MainThread.signal] at announces
        cases announces
      | _ => simpa only [here, MainThread.signal] using announces
    | confirmed =>
      cases here : process.main with
      | ending | confirming =>
        simp only [here, MainThread.confirm] at announces
        split_ifs at announces
      | _ => simpa only [here, MainThread.confirm] using announces
    | _ => exact announces

/-- Calls are announced in their order, and at most one is still to be announced. -/
inductive InOrder (condName : CondName) (trace : Trace (System n σ) (Event n σ)) (s : System n σ) :
    Prop where
  | settled (nobody : ∀ p call, (s.process p).main = .announcing call → call.condName ≠ condName)
      (calls : waitCalls condName trace = (announcements condName trace).map (·.source))
  | announcing {p : ProcessId n} {call : WaitCall σ} (main : (s.process p).main = .announcing call)
      (named : call.condName = condName)
      (calls : waitCalls condName trace = (announcements condName trace).map (·.source) ++ [p])

theorem InOrder.kept (order : InOrder condName trace s)
    (main : ∀ p call, call.condName = condName →
      ((s'.process p).main = .announcing call ↔ (s.process p).main = .announcing call))
    (uncalled : waitCalledBy condName s e = []) (unannounced : announcedBy condName s e = []) :
    InOrder condName ((s, e) :: trace) s' := by
  have calls : waitCalls condName ((s, e) :: trace) = waitCalls condName trace := by
    rw [waitCalls, chronicle, uncalled, List.append_nil, waitCalls]
  have same : announcements condName ((s, e) :: trace) = announcements condName trace := by
    rw [announcements, chronicle, unannounced, List.append_nil, announcements]
  cases order with
  | settled nobody before =>
    refine .settled (fun p call announces named => ?_) (by rw [calls, same, before])
    exact nobody p call ((main p call named).1 announces) named
  | announcing here named before =>
    exact .announcing ((main _ _ named).2 here) named (by rw [calls, same, before])

section
variable (under : ∀ trace s (e : Event n σ), contract trace s e →
  waitsUnder condName mutexName s e = true)
include under

theorem announcing_unique (run : Run communicator serialization setup contract trace s)
    {first second : WaitCall σ} (here : (s.process p).main = .announcing first)
    (there : (s.process q).main = .announcing second) (named : first.condName = condName)
    (named' : second.condName = condName) : p = q := by
  obtain ⟨time, holding⟩ := announcing_holds under run here named
  obtain ⟨time', holding'⟩ := announcing_holds under run there named'
  exact holding_unique run holding holding'

theorem InOrder.announced (order : InOrder condName trace s)
    (run : Run .simple serialization setup contract trace s) {call : WaitCall σ}
    (main : (s.process self).main = .announcing call) (named : call.condName = condName)
    (does : ThreadStep serialization self monitors (s.process self) .announce consumed process' sent) :
    InOrder condName ((s, (self, .announce)) :: trace) (s.update self (process', sent)) := by
  have unique : ∀ p other, (s.process p).main = .announcing other → other.condName = condName →
      p = self := fun p other here same => announcing_unique under run here main same named
  cases order with
  | settled nobody => exact absurd named (nobody self call main)
  | announcing here same calls =>
    rw [unique _ _ here same] at calls
    refine .settled (fun p other announces same => ?_) ?_
    · by_cases own : p = self
      · subst own
        rw [System.update_own] at announces
        cases does with
        | main does =>
          cases does with
          | configured called => cases called
          | notify called => rcases called with called | called <;> cases called
          | announce => cases announces
      · rw [System.update_other _ own] at announces
        exact own (unique p other announces same)
    · have sent : announcedBy condName s (self, .announce) =
          [⟨(s.process self).currentLamportTime + 1, self, .condWait, condName⟩] := by
        simp [announcedBy, main, named]
      rw [waitCalls, chronicle, announcements, chronicle, sent, List.map_append]
      exact (List.append_nil _).trans calls

theorem InOrder.called (order : InOrder condName trace s) {mutex : MutexName} {predicate : σ → Bool}
    (run : Run .simple serialization setup contract
      ((s, (self, .wait condName mutex predicate)) :: trace) (s.update self (process', sent)))
    (does : ThreadStep serialization self monitors (s.process self)
      (.wait condName mutex predicate) consumed process' sent) :
    InOrder condName ((s, (self, .wait condName mutex predicate)) :: trace)
      (s.update self (process', sent)) := by
  have waiting : (s.process self).main = .running ∧ ∃ call : WaitCall σ,
      process'.main = .announcing call ∧ call.condName = condName := by
    cases does with
    | main does =>
      cases does with
      | configured called => cases called
      | notify called => rcases called with called | called <;> cases called
      | wait here => exact ⟨here, _, rfl, rfl⟩
  obtain ⟨idle, call, announces, named⟩ := waiting
  have main : ((s.update self (process', sent)).process self).main = .announcing call := by
    rw [System.update_own, announces]
  cases order with
  | settled nobody calls =>
    refine .announcing main named ?_
    have called : waitCalledBy condName s (self, .wait condName mutex predicate) = [self] :=
      if_pos rfl
    have quiet : announcedBy condName s (self, .wait condName mutex predicate) = [] := rfl
    rw [waitCalls, chronicle, called, announcements, chronicle, quiet, List.append_nil]
    exact congrArg (· ++ [self]) calls
  | @announcing p other here same =>
    have different : p ≠ self := by
      rintro rfl
      cases idle.symm.trans here
    rw [← s.update_other different process' sent] at here
    exact absurd (announcing_unique under run here main same named) different

theorem InOrder.acts (order : InOrder condName trace s)
    (run : Run .simple serialization setup contract ((s, (self, action)) :: trace)
      (s.update self (process', sent)))
    (does : ThreadStep serialization self monitors (s.process self) action consumed process' sent) :
    InOrder condName ((s, (self, action)) :: trace) (s.update self (process', sent)) := by
  by_cases announces : ∃ call, action = .announce ∧ (s.process self).main = .announcing call ∧
      call.condName = condName
  · obtain ⟨call, rfl, main, named⟩ := announces
    cases run with
    | next before => exact order.announced under before main named does
  · by_cases called : ∃ mutex predicate, action = .wait condName mutex predicate
    · obtain ⟨mutex, predicate, rfl⟩ := called
      exact order.called under run does
    · refine order.kept (fun p call named => ?_) ?_ ?_
      · by_cases own : p = self
        · subst own
          rw [System.update_own]
          constructor
          · intro announcing
            refine (announcing_origin does announcing).resolve_right ?_
            rintro ⟨-, rfl⟩
            exact called ⟨_, _, by rw [named]⟩
          · intro main
            refine (announcing_step does main).resolve_right ?_
            rintro rfl
            exact announces ⟨call, rfl, main, named⟩
        · rw [System.update_other _ own]
      · unfold waitCalledBy
        split
        next other mutex predicate acts =>
          refine if_neg fun same => called ⟨mutex, predicate, ?_⟩
          exact same ▸ acts
        next => rfl
      · refine List.eq_nil_iff_forall_not_mem.2 fun packet member => ?_
        obtain ⟨acts, ⟨call, main, named⟩, -⟩ := mem_announcedBy member
        exact announces ⟨call, acts, main, named⟩

theorem inOrder_run (run : Run .simple serialization setup contract trace s) :
    InOrder condName trace s := by
  apply run.history_invariant (I := InOrder condName)
  · rintro _ rfl
    exact .settled nofun rfl
  · intro trace s e s' run order may taken
    have run' := run.next may taken
    cases systemStep (wellFormed_run run) taken with
    | @receive self source raw rest listening head =>
      have main : ∀ p, (Function.update s.process self ((s.process self).receive .simple source raw)
          p).main = (s.process p).main := read_update (·.main) (by rfl)
      exact order.kept (fun p call _ => by rw [main p]) rfl rfl
    | updateTimestamp updating => exact absurd updating (not_updating run _ _)
    | acts does => exact order.acts under run' does

theorem senders_eq (run : Run .simple serialization setup contract trace s)
    (unended : ∀ p, ∀ raw ∈ dispatchedAt p q trace, raw.carries .condWaitEnd condName = false) :
    ((s.process q).waits condName).senders.toFinset = waitersAt condName q trace := by
  have listed := listed_iff under run unended
  ext p
  rw [List.mem_toFinset, mem_waitersAt, StampedSet.senders, List.mem_map]
  constructor
  · rintro ⟨packet, member, rfl⟩
    obtain ⟨dispatched, type, named⟩ := (listed packet).1 member
    exact ⟨packet.raw, dispatched, RawPacket.carries_iff.2 ⟨type, named⟩⟩
  · rintro ⟨raw, dispatched, carries⟩
    obtain ⟨type, named⟩ := RawPacket.carries_iff.1 carries
    exact ⟨toPacket raw p, (listed _).2 ⟨dispatched, type, named⟩, rfl⟩

theorem first_heard (run : Run .simple serialization setup contract trace s)
    (waits : packet.source ∈ waitersAt condName q trace)
    (announced : packet ∈ announcements condName trace) :
    ∃ first, Heard condName q trace first ∧ first.lamportTime ≤ packet.lamportTime := by
  obtain ⟨raw, dispatched, carries⟩ := mem_waitersAt.1 waits
  have arrived : raw ∈ (dispatchedAt packet.source q trace).filter (·.carries .condWait condName) :=
    List.mem_filter.2 ⟨dispatched, carries⟩
  have ahead := (dispatched_isPrefix run packet.source q).filter (·.carries .condWait condName)
  have sent := sentTo_announced condName run packet.source q
  have mine : packet ∈ (announcements condName trace).filter (·.source = packet.source) :=
    List.mem_filter.2 ⟨announced, decide_eq_true rfl⟩
  split_ifs at sent with own
  · rw [sent] at ahead
    rw [List.prefix_nil.1 ahead] at arrived
    cases arrived
  · have sorted := (announcements_sorted under run).filter (·.source = packet.source)
    cases list : (announcements condName trace).filter (·.source = packet.source) with
    | nil =>
      rw [list] at mine
      cases mine
    | cons first rest =>
      rw [list] at mine sorted
      rw [sent, list, List.map_cons] at ahead
      obtain ⟨source, from'⟩ := List.mem_filter.1 (list ▸ List.mem_cons_self .. :
        first ∈ (announcements condName trace).filter (·.source = packet.source))
      obtain ⟨type, named, -⟩ := announced_own run first source
      have head : first.raw ∈ dispatchedAt packet.source q trace := by
        cases arrivals : (dispatchedAt packet.source q trace).filter (·.carries .condWait condName) with
        | nil =>
          rw [arrivals] at arrived
          cases arrived
        | cons other others =>
          rw [arrivals] at ahead
          rw [← (List.cons_prefix_cons.1 ahead).1]
          exact (List.mem_filter.1 (arrivals ▸ List.mem_cons_self ..)).1
      refine ⟨first, ⟨(of_decide_eq_true from').symm ▸ head, type, named⟩, ?_⟩
      rcases List.mem_cons.1 mine with rfl | behind
      · exact le_rfl
      · exact ((List.pairwise_cons.1 sorted).1 packet behind).le

/-- The list starts with the process that called first: an earlier announcement of another
listed process would have been dispatched too, and be listed ahead. -/
theorem first_called (run : Run .simple serialization setup contract trace s)
    (unended : ∀ p, ∀ raw ∈ dispatchedAt p q trace, raw.carries .condWaitEnd condName = false)
    {rest : List (Packet n)} (packets : ((s.process q).waits condName).packets = packet :: rest) :
    (waitCalls condName trace).find? (· ∈ waitersAt condName q trace) = some packet.source := by
  have listed := listed_iff under run unended
  have heard := (listed packet).1 (packets ▸ List.mem_cons_self ..)
  obtain ⟨earlier, later, split⟩ := List.append_of_mem (announced_of_heard run heard)
  have sorted := announcements_sorted under run
  have smallest : ∀ other, Heard condName q trace other → packet.lamportTime ≤ other.lamportTime := by
    intro other heard
    have order := ((s.process q).waits condName).sorted
    rw [packets] at order
    rcases List.mem_cons.1 (packets ▸ (listed other).2 heard) with rfl | behind
    · exact le_rfl
    · exact ((List.pairwise_cons.1 order).1 other behind).le
  have unlisted : ∀ other ∈ earlier, other.source ∉ waitersAt condName q trace := by
    intro other member waits
    obtain ⟨first, heard, before⟩ := first_heard under run waits
      (split ▸ List.mem_append_left _ member)
    rw [split] at sorted
    have ahead := (List.pairwise_append.1 sorted).2.2 other member packet (List.mem_cons_self ..)
    exact absurd ((smallest first heard).trans before) (not_le.2 ahead)
  have found : ∀ callers, (((announcements condName trace).map (·.source)) ++ callers).find?
      (· ∈ waitersAt condName q trace) = some packet.source := by
    intro callers
    refine List.find?_eq_some_iff_append.2 ⟨?_, earlier.map (·.source),
      later.map (·.source) ++ callers, ?_, ?_⟩
    · obtain ⟨dispatched, type, named⟩ := heard
      exact decide_eq_true (mem_waitersAt.2 ⟨packet.raw, dispatched, RawPacket.carries_iff.2 ⟨type, named⟩⟩)
    · simp [split]
    · intro p member
      obtain ⟨other, before, rfl⟩ := List.mem_map.1 member
      simpa using unlisted other before
  cases inOrder_run under run with
  | settled nobody calls =>
    rw [calls]
    exact List.append_nil ((announcements condName trace).map (·.source)) ▸ found []
  | announcing main named calls => exact calls ▸ found _

end

theorem notifyAll_listed (taken : step communicator serialization s (q, .notifyAll condName) = some s') :
    (s'.process q).main =
        .notifying condName ((s.process q).waits condName).senders.toFinset ∨
      ((s.process q).waits condName).senders.toFinset = ∅ ∧ (s'.process q).main = .running := by
  obtain ⟨main, after⟩ := step_call (fun _ => rfl) (by intro source; simp) taken
  rw [after]
  simp only [Process.notifyAll]
  split_ifs with empty'
  · have absent : (s.process q).conditionalWaits = ∅ := AList.ext empty'
    refine .inr ⟨?_, main⟩
    rw [Process.waits, absent, AList.lookup_empty]
    rfl
  · exact .inl rfl

theorem notifyOne_first {rest : List (Packet n)}
    (packets : ((s.process q).waits condName).packets = packet :: rest)
    (taken : step communicator serialization s (q, .notifyOne condName) = some s') :
    (s'.process q).main = .notifying condName {packet.source} := by
  obtain ⟨main, after⟩ := step_call (fun _ => rfl) (by intro source; simp) taken
  rw [after]
  simp only [Process.notifyOne, packets]

theorem notifyOne_nobody (packets : ((s.process q).waits condName).packets = [])
    (taken : step communicator serialization s (q, .notifyOne condName) = some s') :
    (s'.process q).main = .running := by
  obtain ⟨main, after⟩ := step_call (fun _ => rfl) (by intro source; simp) taken
  rw [after]
  simpa only [Process.notifyOne, packets] using main

/-- The next notification that a process sends goes to these recipients and to nobody else,
whatever happens until it is sent. -/
def NotifiesExactly (communicator : Communicator) (serialization : Serialization σ)
    (condName : CondName) (q : ProcessId n) (recipients : Finset (ProcessId n)) (s : System n σ) :
    Prop :=
  ∀ later s', Execution (step communicator serialization) (· = s) (fun _ _ e => e ≠ (q, .sendNotify))
      later s' →
    (s'.process q).main = .notifying condName recipients ∧
    ∀ r, sentBy serialization q r s' (q, .sendNotify) = if r ∈ recipients then
      [⟨(s'.process q).currentLamportTime + 1, .condNotify, condName⟩] else []

theorem notifying_sends {recipients : Finset (ProcessId n)}
    (main : (s.process q).main = .notifying condName recipients) (r : ProcessId n) :
    sentBy serialization q r s (q, .sendNotify) = if r ∈ recipients then
      [⟨(s.process q).currentLamportTime + 1, .condNotify, condName⟩] else [] := by
  simp only [sentBy, if_true, Process.act, Process.sendNotify, main, Process.send, Option.elim,
    addressed_singleton]
  rfl

theorem notifiesExactly (wf : s.WellFormed setup) {recipients : Finset (ProcessId n)}
    (main : (s.process q).main = .notifying condName recipients) :
    NotifiesExactly communicator serialization condName q recipients s := by
  intro later s' execution
  have stays : s'.WellFormed setup ∧ (s'.process q).main = .notifying condName recipients := by
    apply execution.invariant
      (I := fun s => s.WellFormed setup ∧ (s.process q).main = .notifying condName recipients)
    · rintro _ rfl
      exact ⟨wf, main⟩
    · rintro trace s e s' - ⟨wf, main⟩ may taken
      refine ⟨wf.step (systemStep wf taken), ?_⟩
      exact (notifying_reaches wf main taken).resolve_right fun sends => may sends.1
  exact ⟨stays.2, notifying_sends stays.2⟩

/-- As long as no end of a wait has been dispatched, a process lists all whose announcement
has been. All of them are notified at once, and one by one the first caller first. -/
theorem waiters_in_order
    (run : Run .simple serialization setup (Obeying (waitsUnder condName mutexName)) trace s)
    (unended : ∀ p, ∀ raw ∈ dispatchedAt p q trace, raw.carries .condWaitEnd condName = false) :
    ((s.process q).waits condName).senders.toFinset = waitersAt condName q trace ∧
    (∀ s', step .simple serialization s (q, .notifyAll condName) = some s' →
      NotifiesExactly .simple serialization condName q (waitersAt condName q trace) s' ∨
        waitersAt condName q trace = ∅ ∧ (s'.process q).main = .running) ∧
    ∀ s', step .simple serialization s (q, .notifyOne condName) = some s' →
      (waitersAt condName q trace).Nonempty →
      ∃ r, (waitCalls condName trace).find? (· ∈ waitersAt condName q trace) = some r ∧
        NotifiesExactly .simple serialization condName q {r} s' := by
  have under : ∀ trace s (e : Event n σ), Obeying (waitsUnder condName mutexName) trace s e →
      waitsUnder condName mutexName s e = true := fun _ _ _ may => may
  have senders := senders_eq under run unended
  have wf : ∀ {e : Event n σ} {s'}, step .simple serialization s e = some s' →
      s'.WellFormed setup := fun taken => (wellFormed_run run).step (systemStep (wellFormed_run run) taken)
  refine ⟨senders, fun s' taken => ?_, fun s' taken somebody => ?_⟩
  · rw [← senders]
    exact (notifyAll_listed taken).imp_left (notifiesExactly (wf taken))
  · cases packets : ((s.process q).waits condName).packets with
    | nil =>
      rw [← senders, StampedSet.senders, packets] at somebody
      exact absurd rfl somebody.ne_empty
    | cons packet rest =>
      exact ⟨packet.source, first_called under run unended packets,
        notifiesExactly (wf taken) (notifyOne_first packets taken)⟩

theorem waiters_in_order_three : ∃ trace s s',
    Run .simple unary (shared 3) (Obeying (waitsUnder news board.1)) trace s ∧
      (∀ p, ∀ raw ∈ dispatchedAt p 2 trace, raw.carries .condWaitEnd news = false) ∧
      waitersAt news 2 trace = {0, 1} ∧ step .simple unary s (2, .notifyOne news) = some s' ∧
      NotifiesExactly .simple unary news 2 {0} s' := by
  obtain ⟨trace, s, run, reached⟩ := exists_run .simple unary (shared 3)
    (Obeying (waitsUnder news board.1))
    [[(0, .lock board.1), (0, .queue)], deliver 0 1, deliver 0 2, deliver 1 0, deliver 2 0,
      [(0, .acquired), (0, .wait news board.1 (· == 1)), (0, .announce)], deliver 0 1,
      [(0, .evaluate), (0, .released), (1, .lock board.1), (1, .queue)], deliver 1 0, deliver 1 2,
      deliver 0 1, deliver 2 1, [(1, .acquired), (1, .wait news board.1 (· == 1)), (1, .announce)],
      deliver 1 2, deliver 0 2].flatten
    (fun trace s => (∀ p : ProcessId 3, ∀ raw ∈ dispatchedAt p 2 trace,
        raw.carries .condWaitEnd news = false) ∧ waitersAt news 2 trace = {0, 1} ∧
      (waitCalls news trace).find? (· ∈ waitersAt news 2 trace) = some 0 ∧
      (step .simple unary s (2, .notifyOne news)).isSome)
    (by decide +kernel)
  obtain ⟨unended, waiters, first, taken⟩ := of_decide_eq_true reached
  obtain ⟨s', taken⟩ := Option.isSome_iff_exists.1 taken
  obtain ⟨r, found, notifies⟩ := (waiters_in_order run unended).2.2 s' taken (by rw [waiters]; decide)
  rw [first] at found
  cases found
  exact ⟨trace, s, s', run, unended, waiters, taken, notifies⟩

end DistributedMonitor
