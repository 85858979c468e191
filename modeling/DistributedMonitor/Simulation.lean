import DistributedMonitor.MutexEffect

/-! Every run plays the ticket protocol for each of its mutexes: a request is in
exactly one of the places a token can be, and clocks, phases and grants agree. -/

namespace DistributedMonitor
open Library TicketExclusion

variable {n : ℕ} {σ : Type} {communicator : Communicator} {serialization : Serialization σ}
  {setup : Setup n σ} {self : ProcessId n} {monitors : List MonitorName}
  {process process' : Process n σ} {action : Action n σ} {consumed : Option (Packet n)}
  {sent : List (Envelope n)} {packet : Packet n} {s s' : System n σ} {e : Event n σ}
  {mutexName : MutexName}

def grantOf (mutexName : MutexName) (s : System n σ) (e : Event n σ) :
    Option (Ticket (ProcessId n)) :=
  match e.2 with
  | .acquired => match (s.process e.1).phase mutexName with
    | .awaiting time => some (ticket time e.1)
    | _ => none
  | _ => none

/-- The tickets of all returns from `acquireMutex`, the latest first. -/
def grants (mutexName : MutexName) (trace : Trace (System n σ) (Event n σ)) :
    List (Ticket (ProcessId n)) :=
  recorded (grantOf mutexName) trace

def System.requests (s : System n σ) (mutexName : MutexName) (p q : ProcessId n) : ℕ :=
  (s.pending p q).countP (·.carries .mutexRequest mutexName)

def System.agreements (s : System n σ) (mutexName : MutexName) (p q : ProcessId n) : ℕ :=
  (s.pending p q).countP (·.carries .mutexAgreement mutexName)

structure Simulates (communicator : Communicator) (mutexName : MutexName) (s : System n σ)
    (a : State (ProcessId n)) : Prop where
  clock : ∀ p, a.clock p = (s.process p).currentLamportTime
  phase : ∀ p, a.phase p = (s.process p).phase mutexName
  requested : ∀ p q, s.requests mutexName p q = if a.token p q = .requested then 1 else 0
  deferred : ∀ p q, p ∈ ((s.process q).deferred mutexName).senders ↔
    a.token p q = .deferred
  agreed : ∀ p q, s.agreements mutexName q p = if a.token p q = .agreed then 1 else 0
  counted : ∀ p q, q ∈ (s.process p).main.agreements mutexName ↔ a.token p q = .counted
  stamped : ∀ p q raw time, raw ∈ s.pending p q → raw.carries .mutexRequest mutexName = true →
    a.phase p = .awaiting time →
    time ≤ raw.lamportTime ∧ (communicator = .simple → raw.lamportTime = time)
  known : ∀ p q raw time, raw ∈ inboxFrom p (s.process q).receiving.inbox →
    raw.carries .mutexRequest mutexName = true → a.phase p = .awaiting time →
    time < a.clock q

theorem count_acts (does : ThreadStep serialization self monitors (s.process self) action consumed
      process' sent) (select : RawPacket → Bool) (p q : ProcessId n) :
    ((s.update self (process', sent)).pending p q).countP select +
        (dispatchedFrom self p q consumed).countP select =
      (s.pending p q).countP select + (sentFrom self p q sent).countP select := by
  obtain ⟨rest, before, after⟩ := pending_acts does p q
  rw [before, after, List.countP_append, List.countP_append]
  omega

theorem count_dispatched (packet : Packet n) (select : RawPacket → Bool) (p q : ProcessId n) :
    (dispatchedFrom self p q (some packet)).countP select =
      if q = self ∧ p = packet.source ∧ select packet.raw = true then 1 else 0 := by
  unfold dispatchedFrom inboxFrom
  by_cases mine : q = self <;> by_cases from' : packet.source = p <;>
    simp [mine, from', eq_comm (a := p), List.countP_cons]

theorem count_undispatched (select : RawPacket → Bool) (p q : ProcessId n) :
    (dispatchedFrom self p q none).countP select = 0 := by
  rw [dispatchedFrom_none, List.countP_nil]

theorem count_sent (packet : Packet n) (recipients : Finset (ProcessId n))
    (select : RawPacket → Bool) (p q : ProcessId n) :
    (sentFrom self p q [⟨packet, recipients⟩]).countP select =
      if p = self ∧ q ∈ recipients ∧ select packet.raw = true then 1 else 0 := by
  unfold sentFrom
  by_cases mine : p = self <;> by_cases listed : q ∈ recipients <;>
    simp [mine, addressed_singleton, listed, List.countP_cons]

theorem count_unsent (select : RawPacket → Bool) (p q : ProcessId n) :
    (sentFrom self p q []).countP select = 0 := by
  simp [sentFrom]

theorem unrelated_dispatched (unread : ∀ source, Unrelated mutexName (inboxFrom source consumed))
    (p q : ProcessId n) : Unrelated mutexName (dispatchedFrom self p q consumed) := by
  unfold dispatchedFrom
  split_ifs
  · exact unread p
  · exact nofun

theorem unrelated_sentFrom (silent : ∀ recipient, Unrelated mutexName (addressed sent recipient))
    (p q : ProcessId n) : Unrelated mutexName (sentFrom self p q sent) := by
  unfold sentFrom
  split_ifs
  · exact silent q
  · exact nofun

theorem Unrelated.requests {raws : List RawPacket} (unrelated : Unrelated mutexName raws) :
    raws.countP (·.carries .mutexRequest mutexName) = 0 :=
  List.countP_eq_zero.2 fun raw member => by simp [(unrelated raw member).1]

theorem Unrelated.agreements {raws : List RawPacket} (unrelated : Unrelated mutexName raws) :
    raws.countP (·.carries .mutexAgreement mutexName) = 0 :=
  List.countP_eq_zero.2 fun raw member => by simp [(unrelated raw member).2]

variable {a a' : State (ProcessId n)}

theorem Simulates.acts (sim : Simulates communicator mutexName s a)
    (does : ThreadStep serialization self monitors (s.process self) action consumed process' sent)
    (later : (s.process self).currentLamportTime ≤ process'.currentLamportTime)
    (fresh : ∀ recipient, ∀ raw ∈ addressed sent recipient,
      raw.carries .mutexRequest mutexName = true →
      ∀ time, a'.phase self = .awaiting time → raw.lamportTime = time)
    (clock : a'.clock self = process'.currentLamportTime)
    (clocks : ∀ p, p ≠ self → a'.clock p = a.clock p)
    (phase : a'.phase self = process'.phase mutexName)
    (phases : ∀ p, p ≠ self → a'.phase p = a.phase p)
    (asked : ∀ q, ∀ raw ∈ s.pending self q, raw.carries .mutexRequest mutexName = true →
      ∀ time, a'.phase self = .awaiting time → a.phase self = .awaiting time)
    (requested : ∀ p q, (if a'.token p q = .requested then 1 else 0) +
        (dispatchedFrom self p q consumed).countP (·.carries .mutexRequest mutexName) =
      (if a.token p q = .requested then 1 else 0) +
        (sentFrom self p q sent).countP (·.carries .mutexRequest mutexName))
    (agreed : ∀ p q, (if a'.token p q = .agreed then 1 else 0) +
        (dispatchedFrom self q p consumed).countP (·.carries .mutexAgreement mutexName) =
      (if a.token p q = .agreed then 1 else 0) +
        (sentFrom self q p sent).countP (·.carries .mutexAgreement mutexName))
    (deferred : ∀ p, p ∈ (process'.deferred mutexName).senders ↔
      a'.token p self = .deferred)
    (deferrals : ∀ p q, q ≠ self → (a'.token p q = .deferred ↔ a.token p q = .deferred))
    (counted : ∀ q, q ∈ process'.main.agreements mutexName ↔ a'.token self q = .counted)
    (counts : ∀ p q, p ≠ self → (a'.token p q = .counted ↔ a.token p q = .counted)) :
    Simulates communicator mutexName (s.update self (process', sent)) a' := by
  have mine := s.update_own self process' sent
  have others : ∀ p, p ≠ self → (s.update self (process', sent)).process p = s.process p :=
    fun p other => s.update_other other ..
  have awaits : ∀ p q, ∀ raw ∈ s.pending p q, raw.carries .mutexRequest mutexName = true →
      ∀ time, a'.phase p = .awaiting time → a.phase p = .awaiting time := by
    intro p q raw member request time waits
    by_cases same : p = self
    · subst same
      exact asked q raw member request time waits
    · exact phases p same ▸ waits
  have grows : ∀ p, a.clock p ≤ a'.clock p := by
    intro p
    by_cases same : p = self
    · rw [same, clock, sim.clock]
      exact later
    · rw [clocks p same]
  constructor
  · intro p
    by_cases same : p = self
    · rw [same, mine, clock]
    · rw [others p same, clocks p same, sim.clock]
  · intro p
    by_cases same : p = self
    · rw [same, mine, phase]
    · rw [others p same, phases p same, sim.phase]
  · intro p q
    have total := count_acts does (·.carries .mutexRequest mutexName) p q
    have before := sim.requested p q
    have after := requested p q
    simp only [System.requests] at before ⊢
    omega
  · intro p q
    by_cases same : q = self
    · rw [same, mine]
      exact deferred p
    · rw [others q same, deferrals p q same]
      exact sim.deferred p q
  · intro p q
    have total := count_acts does (·.carries .mutexAgreement mutexName) q p
    have before := sim.agreed p q
    have after := agreed p q
    simp only [System.agreements] at before ⊢
    omega
  · intro p q
    by_cases same : p = self
    · rw [same, mine]
      exact counted q
    · rw [others p same, counts p q same]
      exact sim.counted p q
  · intro p q raw time member request waits
    rcases mem_pending_acts does member with pending | ⟨rfl, new⟩
    · exact sim.stamped p q raw time pending request (awaits p q raw pending request time waits)
    · have stamp := fresh q raw new request time waits
      exact ⟨stamp.ge, fun _ => stamp⟩
  · intro p q raw time member request waits
    have inbox : raw ∈ inboxFrom p (s.process q).receiving.inbox := by
      by_cases same : q = self
      · rw [same, mine] at member
        subst same
        cases does with
        | main does => rwa [mainStep_receiving does] at member
        | dispatch received free dispatches does =>
          rw [dispatched_receiving does] at member
          cases member
      · rwa [others q same] at member
    have pending : raw ∈ s.pending p q := List.mem_append_left _ inbox
    exact (sim.known p q raw time inbox request
      (awaits p q raw pending request time waits)).trans_le (grows q)

theorem Simulates.none_requested (sim : Simulates communicator mutexName s a) {p q : ProcessId n}
    (absent : a.token p q ≠ .requested) {raw : RawPacket} (member : raw ∈ s.pending p q) :
    raw.carries .mutexRequest mutexName ≠ true := by
  have none' := sim.requested p q
  rw [if_neg absent] at none'
  exact List.countP_eq_zero.1 none' raw member

theorem Simulates.token_requested (sim : Simulates communicator mutexName s a) {p q : ProcessId n}
    {raw : RawPacket} (member : raw ∈ s.pending p q)
    (request : raw.carries .mutexRequest mutexName = true) : a.token p q = .requested := by
  by_contra absent
  exact sim.none_requested absent member request

theorem Simulates.token_agreed (sim : Simulates communicator mutexName s a) {p q : ProcessId n}
    {raw : RawPacket} (member : raw ∈ s.pending q p)
    (agreement : raw.carries .mutexAgreement mutexName = true) : a.token p q = .agreed := by
  by_contra absent
  have none' := sim.agreed p q
  rw [if_neg absent] at none'
  exact List.countP_eq_zero.1 none' raw member agreement

theorem absent_of_unawaiting {ordered : Prop} (inv : Invariant ordered a) {p : ProcessId n}
    (unawaiting : ∀ time, a.phase p ≠ .awaiting time) (q : ProcessId n) :
    a.token p q = .absent := by
  by_contra here
  obtain ⟨-, time, awaits⟩ := inv.token_awaiting p q here
  exact unawaiting time awaits

def Matched (communicator : Communicator) (mutexName : MutexName) (ordered : Prop)
    (s s' : System n σ) (e : Event n σ) (a : State (ProcessId n)) : Prop :=
  ∃ a', Step ordered a a' ∧ Simulates communicator mutexName s' a' ∧
    a'.granted = (grantOf mutexName s e).toList ++ a.granted

theorem grantOf_eq_none (ungranted : action = .acquired → ∀ time,
    (s.process self).phase mutexName ≠ .awaiting time) :
    grantOf mutexName s (self, action) = none := by
  unfold grantOf
  cases action with
  | acquired =>
    cases phase : (s.process self).phase mutexName with
    | awaiting time => exact absurd phase (ungranted rfl time)
    | _ => rfl
  | _ => rfl

section
variable {ordered : Prop} {time : LamportTime}

theorem matched_quiet (sim : Simulates communicator mutexName s a)
    (does : ThreadStep serialization self monitors (s.process self) action consumed process' sent)
    (ungranted : action = .acquired → ∀ time, (s.process self).phase mutexName ≠ .awaiting time)
    (unread : ∀ source, Unrelated mutexName (inboxFrom source consumed))
    (silent : ∀ recipient, Unrelated mutexName (addressed sent recipient))
    (clock : (s.process self).currentLamportTime ≤ process'.currentLamportTime)
    (phase : process'.phase mutexName = (s.process self).phase mutexName)
    (requests : process'.deferred mutexName = (s.process self).deferred mutexName)
    (agreements : process'.main.agreements mutexName =
      (s.process self).main.agreements mutexName) :
    Matched communicator mutexName ordered s (s.update self (process', sent)) (self, action) a := by
  refine ⟨a.tick self process'.currentLamportTime, .tick (sim.clock self ▸ clock), ?_, ?_⟩
  · apply sim.acts does clock
    · intro recipient raw member request
      rw [(silent recipient raw member).1] at request
      cases request
    · exact if_pos rfl
    · exact fun p other => if_neg other
    · exact (sim.phase self).trans phase.symm
    · exact fun p other => rfl
    · exact fun q raw member request time waits => waits
    · intro p q
      rw [(unrelated_dispatched unread p q).requests, (unrelated_sentFrom silent p q).requests]
      rfl
    · intro p q
      rw [(unrelated_dispatched unread q p).agreements, (unrelated_sentFrom silent q p).agreements]
      rfl
    · exact fun p => requests ▸ sim.deferred p self
    · exact fun p q other => Iff.rfl
    · exact fun q => agreements ▸ sim.counted self q
    · exact fun p q other => Iff.rfl
  · rw [grantOf_eq_none ungranted]
    rfl

theorem matched_requested (sim : Simulates communicator mutexName s a) (inv : Invariant ordered a)
    (does : ThreadStep serialization self monitors (s.process self) action none process'
      [⟨⟨(s.process self).currentLamportTime + 1, self, .mutexRequest, mutexName⟩,
        otherProcesses self⟩])
    (ready : (s.process self).phase mutexName = .idle ∨
      ∃ time, (s.process self).phase mutexName = .holding time)
    (again : ordered → (s.process self).phase mutexName = .idle)
    (clock : process'.currentLamportTime = (s.process self).currentLamportTime + 1)
    (phase : process'.phase mutexName = .awaiting ((s.process self).currentLamportTime + 1))
    (requests : process'.deferred mutexName = (s.process self).deferred mutexName)
    (agreements : process'.main.agreements mutexName =
      (s.process self).main.agreements mutexName) :
    Matched communicator mutexName ordered s (s.update self (process',
      [⟨⟨(s.process self).currentLamportTime + 1, self, .mutexRequest, mutexName⟩,
        otherProcesses self⟩])) (self, action) a := by
  have unawaiting : ∀ time, (s.process self).phase mutexName ≠ .awaiting time := by
    rcases ready with idle | ⟨own, holding⟩ <;> simp [*]
  have absent := absent_of_unawaiting inv (p := self) (by rwa [sim.phase])
  rw [← sim.phase] at ready again
  have later : a.clock self < (s.process self).currentLamportTime + 1 :=
    (sim.clock self).trans_lt (Nat.lt_succ_self _)
  refine ⟨_, .request ready again later, ?_, ?_⟩
  · apply sim.acts does (clock ▸ Nat.le_succ _)
    · intro recipient raw member request time waits
      obtain ⟨envelope, listed, -, rfl⟩ := mem_addressed member
      rw [List.mem_singleton.1 listed]
      simp only [State.setTokens, State.setPhase, if_true, Phase.awaiting.injEq] at waits
      exact waits
    · exact (if_pos rfl).trans clock.symm
    · exact fun p other => if_neg other
    · rw [phase]
      exact if_pos rfl
    · exact fun p other => if_neg other
    · intro q raw member request
      exact absurd request (sim.none_requested (by rw [absent q]; decide) member)
    · intro p q
      rw [count_undispatched, count_sent]
      by_cases mine : p = self
      · subst mine
        by_cases same : q = p <;>
          simp [State.setTokens, absent, same, otherProcesses, RawPacket.carries, Packet.raw]
      · simp [State.setTokens, State.setPhase, State.tick, mine]
    · intro p q
      rw [count_undispatched, count_sent]
      by_cases mine : p = self
      · subst mine
        by_cases same : q = p <;>
          simp [State.setTokens, absent, same, RawPacket.carries, Packet.raw]
      · simp [State.setTokens, State.setPhase, State.tick, mine, RawPacket.carries, Packet.raw]
    · intro p
      rw [requests, sim.deferred]
      by_cases mine : p = self
      · subst mine
        simp [State.setTokens, absent]
      · simp [State.setTokens, State.setPhase, State.tick, mine]
    · intro p q other
      by_cases mine : p = self
      · subst mine
        simp [State.setTokens, absent, other]
      · simp [State.setTokens, State.setPhase, State.tick, mine]
    · intro q
      rw [agreements, sim.counted]
      by_cases same : q = self <;> simp [State.setTokens, absent, same]
    · intro p q other
      simp [State.setTokens, State.setPhase, State.tick, other]
  · rw [grantOf_eq_none fun _ => unawaiting]
    rfl

theorem matched_granted (sim : Simulates communicator mutexName s a) (inv : Invariant ordered a)
    (does : ThreadStep serialization self monitors (s.process self) .acquired none process' [])
    {received : PacketSet n} (before : (s.process self).phase mutexName = .awaiting time)
    (about : received.About .mutexAgreement mutexName)
    (collected : (s.process self).main.agreements mutexName = received.senders)
    (complete : received.size = n - 1)
    (clock : process'.currentLamportTime = (s.process self).currentLamportTime)
    (phase : process'.phase mutexName = .holding time)
    (requests : process'.deferred mutexName = (s.process self).deferred mutexName)
    (agreements : process'.main.agreements mutexName = []) :
    Matched communicator mutexName ordered s (s.update self (process', [])) (self, .acquired) a := by
  have senders : ∀ q, q ∈ received.senders ↔ a.token self q = .counted := by
    intro q
    rw [← collected]
    exact sim.counted self q
  have counted : ∀ q, q ≠ self → a.token self q = .counted := by
    have others : self ∉ received.senders := by
      intro member
      exact (inv.token_awaiting self self (by rw [(senders self).1 member]; decide)).1 rfl
    intro q other
    exact (senders q).1 ((PacketSet.size_eq_iff about others).1 complete q other)
  have itself : a.token self self = .absent := by
    by_contra here
    exact (inv.token_awaiting self self here).1 rfl
  have unplaced : ∀ q token, token = .requested ∨ token = .agreed ∨ token = .deferred →
      a.token self q ≠ token := by
    intro q token place
    by_cases same : q = self
    · rw [same, itself]
      rcases place with rfl | rfl | rfl <;> exact nofun
    · rw [counted q same]
      rcases place with rfl | rfl | rfl <;> exact nofun
  refine ⟨_, .grant ((sim.phase self).trans before) counted, ?_, ?_⟩
  · refine sim.acts does clock.ge nofun ?_ ?_ ?_ ?_ ?_ ?_ ?_ ?_ ?_ ?_ ?_
    · exact (sim.clock self).trans clock.symm
    · exact fun p other => rfl
    · rw [phase]
      exact if_pos rfl
    · exact fun p other => if_neg other
    · intro q raw member request
      exact absurd request (sim.none_requested (unplaced q _ (.inl rfl)) member)
    · intro p q
      rw [count_undispatched, count_unsent]
      by_cases mine : p = self
      · subst mine
        simp [State.setTokens, unplaced q]
      · simp [State.setTokens, State.setPhase, mine]
    · intro p q
      rw [count_undispatched, count_unsent]
      by_cases mine : p = self
      · subst mine
        simp [State.setTokens, unplaced q]
      · simp [State.setTokens, State.setPhase, mine]
    · intro p
      rw [requests, sim.deferred]
      by_cases mine : p = self
      · subst mine
        simp [State.setTokens, unplaced]
      · simp [State.setTokens, State.setPhase, mine]
    · intro p q other
      by_cases mine : p = self
      · subst mine
        simp [State.setTokens, unplaced]
      · simp [State.setTokens, State.setPhase, mine]
    · intro q
      rw [agreements]
      simp [State.setTokens]
    · intro p q other
      simp [State.setTokens, State.setPhase, other]
  · simp only [grantOf, before]
    rfl

theorem matched_leave {phase' : Phase} (sim : Simulates communicator mutexName s a)
    (does : ThreadStep serialization self monitors (s.process self) action none process' [])
    (step : Step ordered a (a.setPhase self phase'))
    (before : ∀ time, (s.process self).phase mutexName ≠ .awaiting time)
    (clock : process'.currentLamportTime = (s.process self).currentLamportTime)
    (phase : process'.phase mutexName = phase') (left : ∀ time, phase' ≠ .awaiting time)
    (requests : (process'.deferred mutexName).senders =
      ((s.process self).deferred mutexName).senders)
    (agreements : process'.main.agreements mutexName =
      (s.process self).main.agreements mutexName) :
    Matched communicator mutexName ordered s (s.update self (process', [])) (self, action) a := by
  refine ⟨_, step, ?_, ?_⟩
  · refine sim.acts does clock.ge nofun ?_ ?_ ?_ ?_ ?_ ?_ ?_ ?_ ?_ ?_ ?_
    · exact (sim.clock self).trans clock.symm
    · exact fun p other => rfl
    · rw [phase]
      exact if_pos rfl
    · exact fun p other => if_neg other
    · intro q raw member request time waits
      exact absurd ((if_pos rfl).symm.trans waits) (left time)
    · intro p q
      rw [count_undispatched, count_unsent]
      rfl
    · intro p q
      rw [count_undispatched, count_unsent]
      rfl
    · exact fun p => requests ▸ sim.deferred p self
    · exact fun p q other => Iff.rfl
    · exact fun q => agreements ▸ sim.counted self q
    · exact fun p q other => Iff.rfl
  · rw [grantOf_eq_none fun _ => before]
    rfl

/-- What has to be checked of a step that moves one token and changes no phase. -/
theorem Simulates.moved {here there : Token} {p₀ q₀ : ProcessId n}
    (sim : Simulates communicator mutexName s a)
    (does : ThreadStep serialization self monitors (s.process self) action consumed process' sent)
    (later : (s.process self).currentLamportTime ≤ process'.currentLamportTime)
    (place : a.token p₀ q₀ = here) (unrequested : there ≠ .requested)
    (silent : ∀ recipient, ∀ raw ∈ addressed sent recipient,
      raw.carries .mutexRequest mutexName = false)
    (phase : process'.phase mutexName = (s.process self).phase mutexName)
    (read : ∀ p q, (dispatchedFrom self p q consumed).countP (·.carries .mutexRequest mutexName) =
      if p = p₀ ∧ q = q₀ ∧ here = .requested then 1 else 0)
    (heard : ∀ p q,
      (dispatchedFrom self q p consumed).countP (·.carries .mutexAgreement mutexName) =
        if p = p₀ ∧ q = q₀ ∧ here = .agreed then 1 else 0)
    (told : ∀ p q, (sentFrom self q p sent).countP (·.carries .mutexAgreement mutexName) =
      if p = p₀ ∧ q = q₀ ∧ there = .agreed then 1 else 0)
    (deferred : ∀ p, p ∈ (process'.deferred mutexName).senders ↔
      if p = p₀ ∧ self = q₀ then there = .deferred
      else p ∈ ((s.process self).deferred mutexName).senders)
    (deferrals : q₀ ≠ self → there ≠ .deferred ∧ here ≠ .deferred)
    (counted : ∀ q, q ∈ process'.main.agreements mutexName ↔
      if self = p₀ ∧ q = q₀ then there = .counted
      else q ∈ (s.process self).main.agreements mutexName)
    (counts : p₀ ≠ self → there ≠ .counted ∧ here ≠ .counted) :
    Simulates communicator mutexName (s.update self (process', sent))
      ((a.tick self process'.currentLamportTime).setToken p₀ q₀ there) := by
  have token : ∀ p q, ((a.tick self process'.currentLamportTime).setToken p₀ q₀ there).token p q =
      if p = p₀ ∧ q = q₀ then there else a.token p q := fun p q => rfl
  apply sim.acts does later
  · intro recipient raw member request
    rw [silent recipient raw member] at request
    cases request
  · exact if_pos rfl
  · exact fun p other => if_neg other
  · exact (sim.phase self).trans phase.symm
  · exact fun p other => rfl
  · exact fun q raw member request time waits => waits
  · intro p q
    have unsent : (sentFrom self p q sent).countP (·.carries .mutexRequest mutexName) = 0 := by
      refine List.countP_eq_zero.2 fun raw member => ?_
      unfold sentFrom at member
      split_ifs at member
      · simp [silent q raw member]
      · cases member
    rw [token, read, unsent]
    by_cases pair : p = p₀ ∧ q = q₀
    · obtain ⟨rfl, rfl⟩ := pair
      simp [place, unrequested]
    · have apart : ¬(p = p₀ ∧ q = q₀ ∧ here = .requested) := fun same => pair ⟨same.1, same.2.1⟩
      rw [if_neg pair, if_neg apart]
  · intro p q
    rw [token, heard, told]
    by_cases pair : p = p₀ ∧ q = q₀
    · obtain ⟨rfl, rfl⟩ := pair
      simp [place, Nat.add_comm]
    · have apart : ∀ token, ¬(p = p₀ ∧ q = q₀ ∧ token) := fun _ same => pair ⟨same.1, same.2.1⟩
      rw [if_neg pair, if_neg (apart _), if_neg (apart _)]
  · intro p
    rw [deferred, token]
    split_ifs
    · exact Iff.rfl
    · exact sim.deferred p self
  · intro p q other
    rw [token]
    split_ifs with pair
    · obtain ⟨rfl, rfl⟩ := pair
      simp [place, deferrals other]
    · exact Iff.rfl
  · intro q
    rw [counted, token]
    split_ifs
    · exact Iff.rfl
    · exact sim.counted self q
  · intro p q other
    rw [token]
    split_ifs with pair
    · obtain ⟨rfl, rfl⟩ := pair
      simp [place, counts other]
    · exact Iff.rfl

theorem told_single {source : ProcessId n} {time : LamportTime} (p q : ProcessId n) :
    (sentFrom self q p [⟨⟨time, self, .mutexAgreement, mutexName⟩, {source}⟩]).countP
        (·.carries .mutexAgreement mutexName) =
      if p = source ∧ q = self ∧ Token.agreed = .agreed then 1 else 0 := by
  rw [count_sent]
  simp [RawPacket.carries, Packet.raw, and_comm]

theorem silent_single {source : ProcessId n} {time : LamportTime} (recipient : ProcessId n) :
    ∀ raw ∈ addressed [⟨⟨time, self, .mutexAgreement, mutexName⟩, {source}⟩] recipient,
      raw.carries .mutexRequest mutexName = false := by
  intro raw member
  obtain ⟨envelope, listed, -, rfl⟩ := mem_addressed member
  rw [List.mem_singleton.1 listed]
  simp [RawPacket.carries, Packet.raw]

theorem matched_answered {source : ProcessId n} (sim : Simulates communicator mutexName s a)
    (does : ThreadStep serialization self monitors (s.process self) action none process'
      [⟨⟨(s.process self).currentLamportTime + 1, self, .mutexAgreement, mutexName⟩, {source}⟩])
    (before : (s.process self).phase mutexName = .releasing time)
    (waiting : source ∈ ((s.process self).deferred mutexName).senders)
    (clock : process'.currentLamportTime = (s.process self).currentLamportTime + 1)
    (phase : process'.phase mutexName = .releasing time)
    (requests : ∀ p, p ∈ (process'.deferred mutexName).senders ↔
      p ∈ ((s.process self).deferred mutexName).senders ∧ p ≠ source)
    (agreements : process'.main.agreements mutexName =
      (s.process self).main.agreements mutexName) :
    Matched communicator mutexName ordered s (s.update self (process',
      [⟨⟨(s.process self).currentLamportTime + 1, self, .mutexAgreement, mutexName⟩, {source}⟩]))
      (self, action) a := by
  have deferred := (sim.deferred source self).1 waiting
  have later : (s.process self).currentLamportTime ≤ process'.currentLamportTime :=
    clock ▸ Nat.le_succ _
  refine ⟨_, .answer ((sim.phase self).trans before) deferred (sim.clock self ▸ later), ?_, ?_⟩
  · refine sim.moved does later deferred (by decide) silent_single (phase.trans before.symm)
      ?_ ?_ told_single ?_ (fun other => absurd rfl other) ?_ (fun _ => by decide)
    · simp [count_undispatched]
    · simp [count_undispatched]
    · intro p
      rw [requests]
      by_cases same : p = source <;> simp [same]
    · intro q
      rw [agreements, sim.counted]
      split_ifs with pair
      · obtain ⟨rfl, rfl⟩ := pair
        simp [deferred]
      · exact Iff.rfl
  · rw [grantOf_eq_none fun _ time => by rw [before]; exact nofun]
    rfl

theorem request_facts (sim : Simulates communicator mutexName s a) (inv : Invariant ordered a)
    (received : (s.process self).receiving = .received packet)
    (read : packet.raw.carries .mutexRequest mutexName = true) :
    a.token packet.source self = .requested ∧ self ≠ packet.source ∧
      ∃ time, a.phase packet.source = .awaiting time ∧ time < a.clock self ∧
        time ≤ packet.lamportTime := by
  have inbox : packet.raw ∈ inboxFrom packet.source (s.process self).receiving.inbox := by
    simp [received, ReceivingThread.inbox, inboxFrom]
  have member : packet.raw ∈ s.pending packet.source self := List.mem_append_left _ inbox
  have requested := sim.token_requested member read
  obtain ⟨other, time, asking⟩ := inv.token_awaiting _ _ (by rw [requested]; decide)
  exact ⟨requested, other, time, asking, sim.known _ _ _ _ inbox read asking,
    (sim.stamped _ _ _ _ member read asking).1⟩

theorem read_request (read : packet.raw.carries .mutexRequest mutexName = true)
    (p q : ProcessId n) :
    (dispatchedFrom self p q (some packet)).countP (·.carries .mutexRequest mutexName) =
      if p = packet.source ∧ q = self ∧ Token.requested = .requested then 1 else 0 := by
  rw [count_dispatched]
  simp [read, and_comm]

theorem unheard_request (read : packet.raw.carries .mutexRequest mutexName = true)
    (p q : ProcessId n) :
    (dispatchedFrom self q p (some packet)).countP (·.carries .mutexAgreement mutexName) =
      if p = packet.source ∧ q = self ∧ Token.requested = .agreed then 1 else 0 := by
  have other : packet.raw.carries .mutexAgreement mutexName = false := by
    have type := (RawPacket.carries_iff.1 read).1
    simp [RawPacket.carries, type]
  rw [count_dispatched]
  simp [other]

theorem matched_agreed (sim : Simulates communicator mutexName s a) (inv : Invariant ordered a)
    (received : (s.process self).receiving = .received packet)
    (does : ThreadStep serialization self monitors (s.process self) .dispatch (some packet) process'
      [⟨⟨(s.process self).currentLamportTime + 1, self, .mutexAgreement, mutexName⟩,
        {packet.source}⟩])
    (read : packet.raw.carries .mutexRequest mutexName = true)
    (allowed : (s.process self).canSendAgreement self packet = true)
    (clock : process'.currentLamportTime = (s.process self).currentLamportTime + 1)
    (phase : process'.phase mutexName = (s.process self).phase mutexName)
    (requests : process'.deferred mutexName = (s.process self).deferred mutexName)
    (agreements : process'.main.agreements mutexName =
      (s.process self).main.agreements mutexName) :
    Matched communicator mutexName ordered s (s.update self (process',
      [⟨⟨(s.process self).currentLamportTime + 1, self, .mutexAgreement, mutexName⟩,
        {packet.source}⟩])) (self, .dispatch) a := by
  obtain ⟨requested, other, time, asking, known, stamp⟩ := request_facts sim inv received read
  have named : packet.message = mutexName := (RawPacket.carries_iff.1 read).2
  have smaller : ∀ u, (a.phase self).active = some u →
      ticket time packet.source < ticket u self := by
    intro u active
    rw [sim.phase] at active
    simp only [Process.canSendAgreement, named, phase_time (Phase.time_of_active active),
      decide_eq_true_eq] at allowed
    apply ticket_lt.2
    rcases allowed with less | ⟨same, first⟩
    · exact .inl (stamp.trans_lt less)
    · exact (same ▸ stamp).lt_or_eq.imp_right fun same => ⟨same, first⟩
  have later : (s.process self).currentLamportTime ≤ process'.currentLamportTime :=
    clock ▸ Nat.le_succ _
  refine ⟨_, .agree requested asking known smaller (sim.clock self ▸ later), ?_, rfl⟩
  refine sim.moved does later requested (by decide) silent_single phase (read_request read)
    (unheard_request read) told_single ?_ (fun other => absurd rfl other) ?_ (fun _ => by decide)
  · intro p
    rw [requests, sim.deferred]
    split_ifs with pair
    · obtain ⟨rfl, -⟩ := pair
      simp [requested]
    · exact Iff.rfl
  · intro q
    rw [agreements, sim.counted]
    split_ifs with pair
    · exact absurd pair.1 other
    · exact Iff.rfl

theorem matched_deferred (sim : Simulates communicator mutexName s a) (inv : Invariant ordered a)
    (received : (s.process self).receiving = .received packet)
    (does : ThreadStep serialization self monitors (s.process self) .dispatch (some packet) process'
      [])
    (read : packet.raw.carries .mutexRequest mutexName = true)
    (refused : (s.process self).canSendAgreement self packet = false)
    (kept : ordered → ∀ time, (s.process packet.source).queuedMutexes mutexName = some time →
      (s.process self).canSendAgreement self { packet with lamportTime := time } = false)
    (busy : ∀ time, (s.process self).phase mutexName ≠ .releasing time)
    (clock : process'.currentLamportTime = (s.process self).currentLamportTime)
    (phase : process'.phase mutexName = (s.process self).phase mutexName)
    (requests : ∀ p, p ∈ (process'.deferred mutexName).senders ↔
      p ∈ ((s.process self).deferred mutexName).senders ∨ p = packet.source)
    (agreements : process'.main.agreements mutexName =
      (s.process self).main.agreements mutexName) :
    Matched communicator mutexName ordered s (s.update self (process', [])) (self, .dispatch)
      a := by
  obtain ⟨requested, other, time, asking, known, stamp⟩ := request_facts sim inv received read
  have named : packet.message = mutexName := (RawPacket.carries_iff.1 read).2
  obtain ⟨own, queued⟩ : ∃ own, (s.process self).queuedMutexes mutexName = some own := by
    refine Option.isSome_iff_exists.1 (Option.isSome_iff_ne_none.2 fun unqueued => ?_)
    simp [Process.canSendAgreement, named, unqueued] at refused
  have active : (a.phase self).active = some own := by
    rw [sim.phase, phase_queued queued]
    have unreleasing := busy own
    rw [phase_queued queued] at unreleasing
    cases main : (s.process self).main with
    | collecting | releasing =>
      simp only [main, MainThread.phase] at unreleasing ⊢
      split_ifs at unreleasing ⊢ <;> first | rfl | exact absurd rfl unreleasing
    | _ => rfl
  have larger : ordered → ticket own self < ticket time packet.source := by
    intro strict
    rw [sim.phase] at asking
    have refused := kept strict time (phase_time (by rw [asking]; rfl))
    simp only [Process.canSendAgreement, named, queued, decide_eq_false_iff_not, not_or, not_lt,
      not_and] at refused
    refine ticket_lt.2 (refused.1.lt_or_eq.imp_right fun same => ⟨same, ?_⟩)
    exact lt_of_le_of_ne (refused.2 same.symm) other
  have unmoved : a.tick self process'.currentLamportTime = a := by
    rw [clock, ← sim.clock, State.tick_self]
  refine ⟨_, .defer requested asking known active larger, ?_, rfl⟩
  rw [← unmoved]
  refine sim.moved does clock.ge requested (by decide) unsent_nil phase (read_request read)
    (unheard_request read) ?_ ?_ (fun other => absurd rfl other) ?_ (fun _ => by decide)
  · simp [count_unsent]
  · intro p
    rw [requests]
    by_cases same : p = packet.source <;> simp [same]
  · intro q
    rw [agreements, sim.counted]
    split_ifs with pair
    · exact absurd pair.1 other
    · exact Iff.rfl

theorem matched_counted (sim : Simulates communicator mutexName s a) (inv : Invariant ordered a)
    (received : (s.process self).receiving = .received packet)
    (does : ThreadStep serialization self monitors (s.process self) .dispatch (some packet) process'
      [])
    (read : packet.raw.carries .mutexAgreement mutexName = true)
    (clock : process'.currentLamportTime = (s.process self).currentLamportTime)
    (phase : process'.phase mutexName = (s.process self).phase mutexName)
    (requests : process'.deferred mutexName = (s.process self).deferred mutexName)
    (agreements : ∀ q, q ∈ process'.main.agreements mutexName ↔
      q ∈ (s.process self).main.agreements mutexName ∨ q = packet.source) :
    Matched communicator mutexName ordered s (s.update self (process', [])) (self, .dispatch)
      a := by
  have member : packet.raw ∈ s.pending packet.source self := received_pending received
  have agreed := sim.token_agreed member read
  have other := (inv.token_awaiting self packet.source (by rw [agreed]; decide)).1
  have unread : packet.raw.carries .mutexRequest mutexName = false := by
    have type := (RawPacket.carries_iff.1 read).1
    simp [RawPacket.carries, type]
  have unmoved : a.tick self process'.currentLamportTime = a := by
    rw [clock, ← sim.clock, State.tick_self]
  refine ⟨_, .count agreed, ?_, rfl⟩
  rw [← unmoved]
  refine sim.moved does clock.ge agreed (by decide) unsent_nil phase ?_ ?_ ?_ ?_
    (fun _ => by decide) ?_
    (fun other => absurd rfl other)
  · intro p q
    rw [count_dispatched]
    simp [unread]
  · intro p q
    rw [count_dispatched]
    simp [read]
  · simp [count_unsent]
  · intro p
    rw [requests, sim.deferred]
    split_ifs with pair
    · exact absurd pair.2.symm other
    · exact Iff.rfl
  · intro q
    rw [agreements]
    by_cases same : q = packet.source <;> simp [same]

end

/-- A request is judged by the stamp it is dispatched with as by the stamp its sender queued. -/
def keepsVerdict (mutexName : MutexName) (s : System n σ) (e : Event n σ) : Bool :=
  match e.2, (s.process e.1).receiving with
  | .dispatch, .received packet =>
      match packet.raw.carries .mutexRequest mutexName,
        (s.process packet.source).queuedMutexes mutexName with
      | true, some time =>
          (s.process e.1).canSendAgreement e.1 packet =
            (s.process e.1).canSendAgreement e.1 { packet with lamportTime := time }
      | _, _ => true
  | _, _ => true

/-- Each effect on a mutex is a step of the ticket protocol. -/
theorem matched {ordered : Prop} (sim : Simulates communicator mutexName s a)
    (inv : Invariant ordered a)
    (does : ThreadStep serialization self monitors (s.process self) action consumed process' sent)
    (effect : MutexEffect self mutexName (s.process self) action consumed process' sent)
    (again : ordered → (s.process self).main.acquiring = some mutexName →
      (s.process self).owned mutexName = false)
    (kept : ordered → keepsVerdict mutexName s (self, action) = true) :
    Matched communicator mutexName ordered s (s.update self (process', sent)) (self, action)
      a := by
  have received : ∀ packet, consumed = some packet →
      (s.process self).receiving = .received packet := by
    rintro packet rfl
    cases does with
    | dispatch received => exact received
  cases effect with
  | quiet ungranted unread silent clock phase requests agreements =>
    exact matched_quiet sim does ungranted unread silent clock phase requests agreements
  | requested acquires ready unowned clock phase requests agreements =>
    exact matched_requested sim inv does ready (fun strict => unowned (again strict acquires)) clock
      phase requests agreements
  | granted before about collected complete clock phase requests agreements =>
    exact matched_granted sim inv does before about collected complete clock phase requests
      agreements
  | leaving before clock phase requests agreements =>
    exact matched_leave sim does (.release ((sim.phase self).trans before))
      (by simp [before]) clock phase nofun (by rw [requests]) agreements
  | answered before waiting clock phase requests agreements =>
    exact matched_answered sim does before waiting clock phase requests agreements
  | left before clear clock phase requests agreements =>
    refine matched_leave sim does (.finish ((sim.phase self).trans before) fun p waiting => ?_)
      (by simp [before]) clock phase nofun (requests.trans clear.symm) agreements
    have listed := (sim.deferred p self).2 waiting
    rw [clear] at listed
    cases listed
  | agreed read allowed clock phase requests agreements =>
    exact matched_agreed sim inv (received _ rfl) does read allowed clock phase requests agreements
  | deferred read refused busy clock phase requests agreements =>
    refine matched_deferred sim inv (received _ rfl) does read refused (fun strict time queued => ?_)
      busy clock phase requests agreements
    have verdict := kept strict
    simp only [keepsVerdict, received _ rfl, read, queued, decide_eq_true_eq] at verdict
    exact verdict ▸ refused
  | counted read clock phase requests agreements =>
    exact matched_counted sim inv (received _ rfl) does read clock phase requests agreements

theorem matched_receive {ordered : Prop} {source : ProcessId n} {raw : RawPacket}
    {rest : List RawPacket} (sim : Simulates communicator mutexName s a)
    (listening : (s.process self).receiving = .listening)
    (head : s.channel source self = raw :: rest) :
    Matched communicator mutexName ordered s
      { process := Function.update s.process self
          ((s.process self).receive communicator source raw)
        channel := fun from' to' =>
          if from' = source ∧ to' = self then rest else s.channel from' to' }
      (self, .receive source) a := by
  have later : (s.process self).currentLamportTime ≤
      max raw.lamportTime (s.process self).currentLamportTime + 1 :=
    Nat.le_succ_of_le (le_max_right _ _)
  have updated : ∀ {α : Type} (read : Process n σ → α),
      read ((s.process self).receive communicator source raw) = read (s.process self) → ∀ p,
      read (Function.update s.process self ((s.process self).receive communicator source raw) p) =
        read (s.process p) :=
    fun read same p => read_update read same p
  refine ⟨_, .tick (p := self) ((sim.clock self).trans_le later), ?_, rfl⟩
  constructor
  · intro p
    by_cases mine : p = self
    · subst mine
      simp [State.tick, Process.receive]
    · simp [State.tick, mine, sim.clock]
  · exact fun p => (sim.phase p).trans (updated (·.phase mutexName) rfl p).symm
  · intro p q
    rw [System.requests, pending_receive listening head]
    exact sim.requested p q
  · intro p q
    have same := updated (fun process => (process.deferred mutexName).senders) rfl q
    exact same ▸ sim.deferred p q
  · intro p q
    rw [System.agreements, pending_receive listening head]
    exact sim.agreed p q
  · intro p q
    have same := updated (fun process => process.main.agreements mutexName) rfl p
    exact same ▸ sim.counted p q
  · intro p q raw' time member
    rw [pending_receive listening head] at member
    exact sim.stamped p q raw' time member
  · intro p q other time member request asking
    by_cases mine : q = self
    · subst mine
      have inbox : ((s.process q).receive communicator source raw).receiving.inbox =
          some (toPacket raw source) := by
        cases communicator <;> rfl
      simp only [Function.update_self, inbox] at member
      obtain ⟨rfl, rfl⟩ := mem_inboxFrom.1 member
      have pending : raw ∈ s.pending source q := by simp [System.pending, head]
      have bound := (sim.stamped source q raw time pending request asking).1
      simp only [State.tick, if_true]
      exact Nat.lt_succ_of_le (bound.trans (le_max_left _ _))
    · simp only [Function.update_of_ne mine] at member
      simp only [State.tick, if_neg mine]
      exact sim.known p q other time member request asking

theorem matched_updateTimestamp {ordered : Prop} (sim : Simulates .optimized mutexName s a)
    (updating : (s.process self).receiving = .updating packet) :
    ∃ a', Relation.ReflTransGen (Step ordered) a a' ∧
      Simulates .optimized mutexName (s.update self ({ s.process self with
        receiving := .received
          { packet with lamportTime := (s.process self).currentLamportTime } }, [])) a' ∧
      a'.granted = (grantOf mutexName s (self, .updateTimestamp)).toList ++ a.granted := by
  have pending := pending_updateTimestamp updating
  have inbox : packet.raw ∈ inboxFrom packet.source (s.process self).receiving.inbox := by
    simp [updating, ReceivingThread.inbox, inboxFrom]
  have before : s.pending packet.source self = packet.raw :: s.channel packet.source self := by
    simp [System.pending, updating, ReceivingThread.inbox, inboxFrom]
  have counts : ∀ messageType p q,
      ((s.update self ({ s.process self with
        receiving := .received
          { packet with lamportTime := (s.process self).currentLamportTime } }, [])).pending p q).countP
          (·.carries messageType mutexName) =
        (s.pending p q).countP (·.carries messageType mutexName) := by
    intro messageType p q
    rw [pending]
    split_ifs with pair
    · obtain ⟨rfl, rfl⟩ := pair
      rw [before, List.countP_cons, List.countP_cons]
      rfl
    · rfl
  have updated : ∀ {α : Type} (read : Process n σ → α),
      (∀ process receiving, read { process with receiving := receiving } = read process) → ∀ p,
      read (Function.update s.process self { s.process self with
        receiving := .received
          { packet with lamportTime := (s.process self).currentLamportTime } } p) =
        read (s.process p) :=
    fun read same p => read_update read (same _ _) p
  refine ⟨a, .refl, ?_, rfl⟩
  constructor
  · exact fun p => (sim.clock p).trans (updated (·.currentLamportTime) (fun _ _ => rfl) p).symm
  · exact fun p => (sim.phase p).trans (updated (·.phase mutexName) (fun _ _ => rfl) p).symm
  · exact fun p q => (counts _ p q).trans (sim.requested p q)
  · intro p q
    have same := updated (fun process => (process.deferred mutexName).senders)
      (fun _ _ => rfl) q
    exact same ▸ sim.deferred p q
  · exact fun p q => (counts _ q p).trans (sim.agreed p q)
  · intro p q
    have same := updated (fun process => process.main.agreements mutexName) (fun _ _ => rfl) p
    exact same ▸ sim.counted p q
  · intro p q raw time member request asking
    rw [pending] at member
    split_ifs at member with pair
    · obtain ⟨rfl, rfl⟩ := pair
      rcases List.mem_cons.1 member with rfl | later
      · have bound := sim.known packet.source q packet.raw time inbox request asking
        exact ⟨(sim.clock q ▸ bound).le, by simp⟩
      · exact sim.stamped _ _ raw time (before ▸ List.mem_cons_of_mem _ later) request asking
    · exact sim.stamped p q raw time member request asking
  · intro p q raw time member request asking
    by_cases mine : q = self
    · subst mine
      simp only [System.update, Function.update_self, ReceivingThread.inbox] at member
      obtain ⟨rfl, rfl⟩ := mem_inboxFrom.1 member
      exact sim.known packet.source q packet.raw time inbox request asking
    · simp only [System.update, Function.update_of_ne mine] at member
      exact sim.known p q raw time member request asking

end DistributedMonitor
