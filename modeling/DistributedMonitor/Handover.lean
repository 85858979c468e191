import DistributedMonitor.Delivery

/-! A mutex hands over what its holders have sent: whoever gets it has dispatched all that
earlier holders sent to it before they released. -/

namespace DistributedMonitor
open Library TicketExclusion

variable {n : ℕ} {σ : Type} {communicator : Communicator} {serialization : Serialization σ}
  {setup : Setup n σ} {contract : Permission (System n σ) (Event n σ)}
  {trace later earlier : Trace (System n σ) (Event n σ)} {s s' s₀ : System n σ} {e : Event n σ}
  {mutexName : MutexName} {self p q : ProcessId n} {monitors : List MonitorName}
  {process process' : Process n σ} {action : Action n σ} {consumed : Option (Packet n)}
  {sent : List (Envelope n)} {packet : Packet n} {raw : RawPacket}

/-- The holder starts to release: the program unlocks the mutex or leaves the monitor, or a
wait blocks. -/
def releases (mutexName : MutexName) (s : System n σ) (e : Event n σ) : Bool :=
  (s.process e.1).owned mutexName && match e.2, (s.process e.1).main with
    | .unlock name, .running => name = mutexName
    | .evaluate, .checking call =>
        call.mutex = mutexName ∧ call.predicate ((s.process e.1).state call.mutex) = false
    | .unlockMonitor, .synced monitor => monitor.1 = mutexName
    | _, _ => false

/-- What one process had sent to another when it last started to release the mutex. -/
def sentBeforeRelease (serialization : Serialization σ) (mutexName : MutexName)
    (p q : ProcessId n) : Trace (System n σ) (Event n σ) → List RawPacket
  | [] => []
  | (s, e) :: earlier =>
      if e.1 = p ∧ releases mutexName s e = true then sentTo serialization p q earlier
      else sentBeforeRelease serialization mutexName p q earlier

theorem sentBeforeRelease_isPrefix (serialization : Serialization σ) (mutexName : MutexName)
    (p q : ProcessId n) (trace : Trace (System n σ) (Event n σ)) :
    sentBeforeRelease serialization mutexName p q trace <+: sentTo serialization p q trace := by
  induction trace with
  | nil => exact List.prefix_rfl
  | cons entry earlier ih =>
    simp only [sentBeforeRelease]
    split_ifs
    · exact List.prefix_append _ _
    · exact ih.trans (List.prefix_append _ _)

theorem sentTo_prefix_of_release (later earlier : Trace (System n σ) (Event n σ))
    (released : releases mutexName s₀ e = true) (q : ProcessId n) :
    sentTo serialization e.1 q earlier <+:
      sentBeforeRelease serialization mutexName e.1 q (later ++ (s₀, e) :: earlier) := by
  induction later with
  | nil =>
    simp only [List.nil_append, sentBeforeRelease, released, and_self, if_true]
    exact List.prefix_rfl
  | cons entry later ih =>
    simp only [List.cons_append, sentBeforeRelease]
    split_ifs
    · unfold sentTo
      rw [chronicle_append]
      exact (List.prefix_append _ _).trans (List.prefix_append _ _)
    · exact ih

def outstanding (serialization : Serialization σ) (mutexName : MutexName) (p q : ProcessId n)
    (trace : Trace (System n σ) (Event n σ)) : ℕ :=
  (sentBeforeRelease serialization mutexName p q trace).length - (dispatchedAt p q trace).length

structure Fenced (serialization : Serialization σ) (mutexName : MutexName)
    (trace : Trace (System n σ) (Event n σ)) (s : System n σ) : Prop where
  behind : ∀ p q, p ≠ q → ∀ i raw, (s.pending p q)[i]? = some raw →
    raw.carries .mutexAgreement mutexName = true →
    outstanding serialization mutexName p q trace ≤ i
  counted : ∀ p q, p ≠ q → p ∈ (s.process q).main.agreements mutexName →
    outstanding serialization mutexName p q trace = 0
  holding : ∀ p q, p ≠ q → ∀ time, (s.process q).phase mutexName = .holding time →
    outstanding serialization mutexName p q trace = 0

theorem releases_acts (released : releases mutexName s (self, action) = true)
    (does : ThreadStep serialization self monitors (s.process self) action consumed process' sent) :
    (s.process self).holds mutexName = true ∧ consumed = none ∧ sent = [] ∧
      process'.main.agreements mutexName = [] ∧ (s.process self).main.agreements mutexName = [] := by
  obtain ⟨owned, starts⟩ := Bool.and_eq_true_iff.1 released
  cases does with
  | main does =>
    cases does with
    | unlock here | retry here | unlockMonitor here =>
      refine ⟨holds_iff.2 ⟨owned, by rw [here]; exact nofun⟩, rfl, rfl, ?_, by rw [here]; rfl⟩
      exact read_unlock (·.agreements mutexName) rfl (elsewhere_afterUnlock _).agreements
    | configured called here =>
      cases action with
      | registerMutex | unregisterMutex | registerCV | unregisterCV => cases starts
      | _ => cases called
    | notify called => rcases called with rfl | rfl <;> cases starts
    | stop here holds =>
      simp [here, holds] at starts
    | _ => cases starts
  | dispatch => cases starts

theorem sentBeforeRelease_kept (kept : e.1 = p → releases mutexName s e = false) :
    sentBeforeRelease serialization mutexName p q ((s, e) :: trace) =
      sentBeforeRelease serialization mutexName p q trace := by
  refine if_neg fun both => ?_
  rw [kept both.1] at both
  exact nomatch both.2

theorem Fenced.quiet (fenced : Fenced serialization mutexName trace s)
    (pending : ∀ p q, s'.pending p q = s.pending p q)
    (agreements : ∀ p, (s'.process p).main.agreements mutexName =
      (s.process p).main.agreements mutexName)
    (phase : ∀ p, (s'.process p).phase mutexName = (s.process p).phase mutexName)
    (same : ∀ p q, outstanding serialization mutexName p q ((s, e) :: trace) =
      outstanding serialization mutexName p q trace) :
    Fenced serialization mutexName ((s, e) :: trace) s' := by
  constructor
  · intro p q different i raw here agreement
    rw [same]
    exact fenced.behind p q different i raw (pending p q ▸ here) agreement
  · intro p q different listed
    rw [same]
    exact fenced.counted p q different (agreements q ▸ listed)
  · intro p q different time holding
    rw [same]
    exact fenced.holding p q different time (phase q ▸ holding)

/-- A holder that starts to release has agreed to nobody, so nobody can be let in before
it has sent an agreement behind all that it sent so far. -/
theorem Fenced.released (fenced : Fenced serialization mutexName trace s)
    (run : Run .simple serialization setup contract trace s)
    (once : ∀ trace s e, contract trace s e → acquiresOnce s e = true)
    (does : ThreadStep serialization self monitors (s.process self) action consumed process' sent)
    (released : releases mutexName s (self, action) = true) :
    Fenced serialization mutexName ((s, (self, action)) :: trace)
      (s.update self (process', sent)) := by
  obtain ⟨holds, rfl, rfl, agreements, before⟩ := releases_acts released does
  obtain ⟨time, holding⟩ := holding_of_holds once run holds
  have mine := s.update_own self process' []
  have others : ∀ p, p ≠ self → (s.update self (process', [])).process p = s.process p :=
    fun p other => s.update_other other ..
  have pending : ∀ p q, (s.update self (process', [])).pending p q = s.pending p q := by
    intro p q
    obtain ⟨rest, before, after⟩ := pending_acts does p q
    have unsent : sentFrom self p q ([] : List (Envelope n)) = [] := ite_self _
    rw [before, after, dispatchedFrom_none, unsent, List.append_nil, List.nil_append]
  have kept : ∀ p q, p ≠ self →
      outstanding serialization mutexName p q ((s, (self, action)) :: trace) ≤
        outstanding serialization mutexName p q trace := by
    intro p q other
    unfold outstanding
    rw [sentBeforeRelease_kept fun same => absurd same.symm other]
    exact Nat.sub_le_sub_left (List.length_append .. ▸ Nat.le_add_right _ _) _
  constructor
  · intro p q different i raw here agreement
    rw [pending] at here
    by_cases own : p = self
    · subst own
      have silent := (holder_silent run holding (Ne.symm different)).1 raw (List.mem_of_getElem? here)
      rw [silent] at agreement
      cases agreement
    · exact (kept p q own).trans (fenced.behind p q different i raw here agreement)
  · intro p q different listed
    by_cases own : q = self
    · subst own
      rw [mine, agreements] at listed
      cases listed
    · rw [others q own] at listed
      by_cases leaver : p = self
      · subst leaver
        exact absurd listed (holder_silent run holding own).2.1
      · exact Nat.le_zero.1 ((kept p q leaver).trans (fenced.counted p q different listed).le)
  · intro p q different time' holding'
    by_cases own : q = self
    · subst own
      exact Nat.le_zero.1 ((kept p q different).trans (fenced.holding p q different time holding).le)
    · rw [others q own] at holding'
      exact absurd holding' ((holder_silent run holding own).2.2 time')

theorem Fenced.acts (fenced : Fenced serialization mutexName trace s)
    (run : Run .simple serialization setup contract trace s)
    (does : ThreadStep serialization self monitors (s.process self) action consumed process' sent)
    (kept : releases mutexName s (self, action) = false) :
    Fenced serialization mutexName ((s, (self, action)) :: trace)
      (s.update self (process', sent)) := by
  have effect : MutexEffect self mutexName (s.process self) action consumed process' sent :=
    mutexEffect (wellFormed_run run self) (owning_run run self) does
  have mine := s.update_own self process' sent
  have others : ∀ p, p ≠ self → (s.update self (process', sent)).process p = s.process p :=
    fun p other => s.update_other other ..
  have fewer : ∀ p q, outstanding serialization mutexName p q ((s, (self, action)) :: trace) =
      outstanding serialization mutexName p q trace - (dispatchedFrom self p q consumed).length := by
    intro p q
    unfold outstanding dispatchedAt
    rw [sentBeforeRelease_kept fun _ => kept, chronicle, dispatchedBy_acts does, List.length_append,
      Nat.sub_add_eq]
  have bound : ∀ p q, outstanding serialization mutexName p q trace ≤ (s.pending p q).length := by
    intro p q
    have early := (sentBeforeRelease_isPrefix serialization mutexName p q trace).length_le
    rw [← fifo run p q, List.length_append] at early
    unfold outstanding
    omega
  have counted : ∀ p q, p ≠ q → p ∈ process'.main.agreements mutexName → q = self →
      outstanding serialization mutexName p q ((s, (self, action)) :: trace) = 0 := by
    intro p q different listed own
    subst own
    rw [fewer]
    rcases agreements_step effect listed with already | ⟨packet, rfl, rfl, agreement⟩
    · rw [fenced.counted p q different already, Nat.zero_sub]
    · obtain ⟨rest, pending, -⟩ := pending_acts does packet.source q
      have first := fenced.behind packet.source q different 0 packet.raw
        (by rw [pending, dispatchedFrom_source]; rfl) agreement
      rw [Nat.le_zero.1 first, Nat.zero_sub]
  constructor
  · intro p q different i raw here agreement
    obtain ⟨rest, pending, pending'⟩ := pending_acts does p q
    have long := bound p q
    rw [fewer]
    rw [pending, List.length_append] at long
    rw [pending'] at here
    by_cases old : i < rest.length
    · rw [List.getElem?_append_left old] at here
      have place := fenced.behind p q different ((dispatchedFrom self p q consumed).length + i) raw
        (by rw [pending, List.getElem?_append_right (Nat.le_add_right _ _), Nat.add_sub_cancel_left,
          here]) agreement
      omega
    · omega
  · intro p q different listed
    by_cases own : q = self
    · exact counted p q different (by rwa [own, mine] at listed) own
    · rw [others q own] at listed
      rw [fewer, fenced.counted p q different listed, Nat.zero_sub]
  · intro p q different time holding
    by_cases own : q = self
    · subst own
      rw [mine] at holding
      rcases holding_step effect holding with ⟨time, before⟩ | ⟨received, about, full, collected⟩
      · rw [fewer, fenced.holding p q different time before, Nat.zero_sub]
      · have listed := counted_all run about full collected p different
        rw [fewer, fenced.counted p q different listed, Nat.zero_sub]
    · rw [others q own] at holding
      rw [fewer, fenced.holding p q different time holding, Nat.zero_sub]

theorem fenced_run (run : Run .simple serialization setup contract trace s)
    (once : ∀ trace s e, contract trace s e → acquiresOnce s e = true) (mutexName : MutexName) :
    Fenced serialization mutexName trace s := by
  apply run.history_invariant (I := Fenced serialization mutexName)
  · rintro _ rfl
    exact ⟨nofun, fun _ _ _ _ => rfl, fun _ _ _ _ _ => rfl⟩
  · intro trace s e s' run fenced may taken
    cases systemStep (wellFormed_run run) taken with
    | receive listening head =>
      refine fenced.quiet (pending_receive listening head) (fun p => ?_) (fun p => ?_) fun p q => ?_
      · exact read_update (fun process => process.main.agreements mutexName) (by rfl) p
      · exact read_update (fun process => process.phase mutexName) (by rfl) p
      · unfold outstanding dispatchedAt
        rw [sentBeforeRelease_kept fun _ => by simp [releases]]
        exact congrArg (_ - List.length ·) (List.append_nil _)
    | updateTimestamp updating => exact absurd updating (not_updating run _ _)
    | @acts self action consumed process' sent does =>
      cases released : releases mutexName s (self, action) with
      | true => exact fenced.released run once does released
      | false => exact fenced.acts run does released

theorem agreed_of_canReturn (run : Run communicator serialization setup contract trace s)
    (returns : (s.process q).canReturn mutexName = true) (different : p ≠ q) :
    p ∈ (s.process q).main.agreements mutexName := by
  obtain ⟨collects, acquires⟩ := of_decide_eq_true returns
  cases main : (s.process q).main with
  | collecting name id received caller =>
    rw [main] at collects
    cases collects
    have complete : answersComplete received = true := by
      by_contra incomplete
      simp [Process.acquired, main, incomplete] at acquires
    exact main ▸ counted_of_collecting run main (of_decide_eq_true complete) p different
  | _ =>
    rw [main] at collects
    cases collects

theorem announcing_step {call : WaitCall σ}
    (does : ThreadStep serialization self monitors process action consumed process' sent)
    (announces : process.main = .announcing call) :
    process'.main = .announcing call ∨ action = .announce := by
  cases does with
  | main does =>
    cases does with
    | announce => exact .inr rfl
    | configured _ here | assign here | lock here | unlock here | wait here | notify _ here
    | leave here | queue here | acquired here | answerDeferred here | released here | stop here
    | retry here | wake here | subscribeConfirmations here | announceEnd here | waitReturns here
    | sendNotify here | sendSync here | unlockMonitor here => cases announces.symm.trans here
  | dispatch received free dispatches does =>
    left
    cases does with
    | early _ here | counted _ here => cases announces.symm.trans here
    | notified | confirmed =>
      simp only [announces]
      rfl
    | _ => exact announces

theorem announced_run (run : Run communicator serialization setup contract trace s)
    {call : WaitCall σ} (waits : (s.process p).main.waitCall = some call)
    (past : (s.process p).main ≠ .announcing call) :
    ∃ s₀, (s₀, (p, .announce)) ∈ trace ∧ (s₀.process p).main = .announcing call := by
  revert waits past
  apply run.history_invariant (I := fun trace s => (s.process p).main.waitCall = some call →
    (s.process p).main ≠ .announcing call →
    ∃ s₀, (s₀, (p, .announce)) ∈ trace ∧ (s₀.process p).main = .announcing call)
  · rintro _ rfl waits
    cases waits
  · intro trace s e s' run before may taken waits past
    have older : (s.process p).main.waitCall = some call →
        (s.process p).main ≠ .announcing call →
        ∃ s₀, (s₀, (p, .announce)) ∈ (s, e) :: trace ∧
          (s₀.process p).main = .announcing call := by
      intro waits past
      obtain ⟨s₀, member, announces⟩ := before waits past
      exact ⟨s₀, List.mem_cons_of_mem _ member, announces⟩
    cases systemStep (wellFormed_run run) taken with
    | @receive self source raw rest listening head =>
      have main : (Function.update s.process self
          ((s.process self).receive communicator source raw) p).main = (s.process p).main :=
        read_update (·.main) (by rfl) p
      exact older (main ▸ waits) (main ▸ past)
    | @updateTimestamp self packet updating =>
      have main : (Function.update s.process self { s.process self with
          receiving := .received
            { packet with lamportTime := (s.process self).currentLamportTime } } p).main =
          (s.process p).main := read_update (·.main) (by rfl) p
      exact older (main ▸ waits) (main ▸ past)
    | @acts self action consumed process' sent does =>
      by_cases mine : p = self
      · subst mine
        simp only [System.update, Function.update_self] at waits past
        rcases waitCall_step does waits with already | rfl
        · by_cases announces : (s.process p).main = .announcing call
          · rcases announcing_step does announces with same | rfl
            · exact absurd same past
            · exact ⟨s, List.mem_cons_self .., announces⟩
          · exact older already announces
        · cases does with
          | main does =>
            cases does with
            | configured called => cases called
            | notify called => rcases called with called | called <;> cases called
            | wait => exact absurd (congrArg MainThread.announcing (Option.some.inj waits)) past
      · simp only [System.update, Function.update_of_ne mine] at waits past
        exact older waits past

theorem mem_sentTo_of_announce {call : WaitCall σ} (member : (s₀, (p, .announce)) ∈ trace)
    (announces : (s₀.process p).main = .announcing call) (different : p ≠ q) :
    ⟨(s₀.process p).currentLamportTime + 1, .condWait, call.condName⟩ ∈
      sentTo serialization p q trace := by
  refine mem_chronicle.2 ⟨_, member, ?_⟩
  have other : q ∈ otherProcesses p := mem_otherProcesses.2 (Ne.symm different)
  simp [sentBy, Process.act, Process.announce, announces, Process.sendOthers, Process.send,
    addressed_singleton, other, Packet.raw]

/-- Whatever a process sent before it released a mutex has been dispatched at the next
process when its `acquireMutex` returns, and so has the announcement of a wait that blocked. -/
theorem release_to_acquire (run : Run .simple serialization setup (Obeying acquiresOnce) trace s)
    (different : p ≠ q) (split : trace = later ++ (s₀, e) :: earlier) (own : e.1 = p)
    (released : releases mutexName s₀ e = true)
    (gets : (s.process q).canReturn mutexName = true ∨ (s.process q).holds mutexName = true) :
    sentTo serialization p q earlier <+: dispatchedAt p q trace ∧
    ∀ call, (s₀.process p).main = .checking call → ∃ s₁, (s₁, (p, .announce)) ∈ earlier ∧
      (s₁.process p).main = .announcing call ∧
      ⟨(s₁.process p).currentLamportTime + 1, .condWait, call.condName⟩ ∈
        dispatchedAt p q trace := by
  have once : ∀ trace s (e : Event n σ), Obeying acquiresOnce trace s e →
      acquiresOnce s e = true := fun _ _ _ may => may
  have fenced := fenced_run run once mutexName
  have arrived : outstanding serialization mutexName p q trace = 0 := by
    rcases gets with returns | holds
    · exact fenced.counted p q different (agreed_of_canReturn run returns different)
    · obtain ⟨time, holding⟩ := holding_of_holds once run holds
      exact fenced.holding p q different time holding
  have early : sentTo serialization p q earlier <+:
      sentBeforeRelease serialization mutexName p q trace := by
    subst split own
    exact sentTo_prefix_of_release later earlier released q
  have delivered : sentTo serialization p q earlier <+: dispatchedAt p q trace := by
    refine early.trans (List.prefix_of_prefix_length_le
      (sentBeforeRelease_isPrefix serialization mutexName p q trace) (dispatched_isPrefix run p q) ?_)
    unfold outstanding at arrived
    omega
  refine ⟨delivered, fun call checks => ?_⟩
  have before : Run .simple serialization setup (Obeying acquiresOnce) earlier s₀ := by
    subst split
    exact run.earlier
  have waits : (s₀.process p).main.waitCall = some call := by
    rw [checks]
    rfl
  have past : (s₀.process p).main ≠ .announcing call := by
    rw [checks]
    exact nofun
  obtain ⟨s₁, member, announces⟩ := announced_run before waits past
  exact ⟨s₁, member, announces, delivered.subset (mem_sentTo_of_announce member announces different)⟩

theorem release_to_acquire_two : ∃ trace s,
    Run .simple unary (shared 2) (Obeying acquiresOnce) trace s ∧
      (s.process 1).canReturn board.1 = true ∧ ∃ later s₀ earlier,
      trace = later ++ (s₀, (0, .evaluate)) :: earlier ∧ releases board.1 s₀ (0, .evaluate) = true ∧
      sentTo unary 0 1 earlier <+: dispatchedAt 0 1 trace := by
  obtain ⟨trace, s, run, reached⟩ := exists_run .simple unary (shared 2) (Obeying acquiresOnce)
    [[(0, .lock board.1), (0, .queue)], deliver 0 1, deliver 1 0, [(0, .acquired),
      (0, .wait news board.1 (· == 1)), (0, .announce)], deliver 0 1, [(0, .evaluate),
      (0, .released), (1, .lock board.1), (1, .queue)], deliver 1 0, deliver 0 1].flatten
    (fun trace s => (s.process 1).canReturn board.1 ∧ trace.any fun entry =>
      match entry.2 with
      | (0, .evaluate) => releases board.1 entry.1 (0, .evaluate)
      | _ => false)
    (by decide +kernel)
  obtain ⟨returns, blocks⟩ := of_decide_eq_true reached
  obtain ⟨⟨s₀, e⟩, member, released⟩ := List.any_eq_true.1 blocks
  obtain ⟨later, earlier, split⟩ := List.append_of_mem member
  split at released
  next blocked =>
    subst blocked
    exact ⟨trace, s, run, returns, _, s₀, _, split, released,
    (release_to_acquire run (by decide) split rfl released (.inl returns)).1⟩
  next => cases released

end DistributedMonitor
