import DistributedMonitor.Delivery

/-! Bounded overtaking: a process that waits for a mutex sees any other process get it at
most twice. The first time may rest on an agreement that is older than the request; every
agreement given after it carries the clock of the one who waits, past the stamp of its request. -/

namespace DistributedMonitor
open Library TicketExclusion

variable {n : ℕ} {σ : Type} {communicator : Communicator} {serialization : Serialization σ}
  {setup : Setup n σ} {contract : Permission (System n σ) (Event n σ)}
  {trace later earlier : Trace (System n σ) (Event n σ)} {s s' s₀ : System n σ} {e : Event n σ}
  {mutexName : MutexName} {self p q : ProcessId n} {monitors : List MonitorName}
  {process process' : Process n σ} {action : Action n σ} {consumed : Option (Packet n)}
  {sent : List (Envelope n)} {packet : Packet n} {time : LamportTime} {grants : ℕ}

def queues (mutexName : MutexName) (p : ProcessId n) (s : System n σ) (e : Event n σ) : Bool :=
  match e.2, (s.process p).main with
  | .queue, .queueing name _ _ _ => e.1 = p ∧ name = mutexName
  | _, _ => false

def acquires (mutexName : MutexName) (p : ProcessId n) (s : System n σ) (e : Event n σ) : Bool :=
  match e.2, (s.process p).main with
  | .acquired, .collecting name _ _ _ => e.1 = p ∧ name = mutexName
  | _, _ => false

theorem acquires_of_awaiting (awaiting : (s.process p).phase mutexName = .awaiting time) :
    acquires mutexName p s (p, .acquired) = true := by
  obtain ⟨id, received, caller, main⟩ := collecting_of_awaiting awaiting
  simp [acquires, main]

theorem awaiting_of_acquires (own : ∀ p, (s.process p).Owning)
    (returns : acquires mutexName p s e = true) :
    e = (p, .acquired) ∧ ∃ time, (s.process p).phase mutexName = .awaiting time := by
  obtain ⟨self, action⟩ := e
  unfold acquires at returns
  split at returns
  next name id received caller acts main =>
    obtain ⟨rfl, rfl⟩ := of_decide_eq_true returns
    exact ⟨congrArg _ acts, awaiting_of_collecting (own _) (by rw [main]; rfl)⟩
  next => cases returns

/-- How far the second process can have got past a request of the first. -/
structure Overtaken (mutexName : MutexName) (p q : ProcessId n) (time : LamportTime) (grants : ℕ)
    (s : System n σ) : Prop where
  asking : (s.process p).phase mutexName = .awaiting time
  bounded : grants ≤ 2
  once : grants = 1 → ∀ own, (s.process q).phase mutexName = .awaiting own →
    (∀ raw ∈ s.pending p q, raw.carries .mutexAgreement mutexName = true →
      time < raw.lamportTime) ∧
    (p ∈ (s.process q).main.agreements mutexName → time < (s.process q).currentLamportTime)
  twice : grants = 2 → time < (s.process q).currentLamportTime ∧
    ∀ own, (s.process q).phase mutexName = .awaiting own → time < own

theorem Overtaken.moved (overtaken : Overtaken mutexName p q time grants s)
    (asking : (s'.process p).phase mutexName = (s.process p).phase mutexName)
    (phase : (s'.process q).phase mutexName = (s.process q).phase mutexName)
    (clock : (s.process q).currentLamportTime ≤ (s'.process q).currentLamportTime)
    (agreements : p ∈ (s'.process q).main.agreements mutexName →
      p ∈ (s.process q).main.agreements mutexName ∨ ∃ raw ∈ s.pending p q,
        raw.carries .mutexAgreement mutexName = true ∧
          raw.lamportTime < (s.process q).currentLamportTime)
    (pending : ∀ raw ∈ s'.pending p q, raw.carries .mutexAgreement mutexName = true →
      raw ∈ s.pending p q ∨ time < raw.lamportTime) :
    Overtaken mutexName p q time grants s' where
  asking := asking.trans overtaken.asking
  bounded := overtaken.bounded
  once := by
    intro one own awaiting
    obtain ⟨coming, counted⟩ := overtaken.once one own (phase ▸ awaiting)
    refine ⟨fun raw member agreement => ?_, fun listed => ?_⟩
    · exact (pending raw member agreement).elim (fun old => coming raw old agreement) id
    · rcases agreements listed with already | ⟨raw, member, agreement, past⟩
      · exact (counted already).trans_le clock
      · exact ((coming raw member agreement).trans past).trans_le clock
  twice := by
    intro two
    obtain ⟨past, asks⟩ := overtaken.twice two
    exact ⟨past.trans_le clock, fun own awaiting => asks own (phase ▸ awaiting)⟩

theorem agreement_stamp (effect : MutexEffect self mutexName process action consumed process' sent)
    {raw : RawPacket} (member : raw ∈ addressed sent q)
    (agreement : raw.carries .mutexAgreement mutexName = true) :
    raw.lamportTime = process.currentLamportTime + 1 := by
  cases effect with
  | quiet _ _ silent =>
    rw [(silent q raw member).2] at agreement
    cases agreement
  | requested =>
    rw [addressed_singleton] at member
    split_ifs at member
    · rw [List.mem_singleton.1 member] at agreement
      cases (RawPacket.carries_iff.1 agreement).1
    · cases member
  | answered | agreed =>
    rw [addressed_singleton] at member
    split_ifs at member
    · rw [List.mem_singleton.1 member]
      rfl
    · cases member
  | granted | leaving | left | deferred | counted => cases member

theorem awaiting_step (effect : MutexEffect self mutexName process action consumed process' sent)
    (awaiting : process.phase mutexName = .awaiting time) (stays : action ≠ .acquired) :
    process'.phase mutexName = .awaiting time := by
  cases effect with
  | quiet _ _ _ _ phase | agreed _ _ _ phase | deferred _ _ _ _ phase | counted _ _ phase =>
    exact phase.trans awaiting
  | requested _ ready =>
    rw [awaiting] at ready
    rcases ready with idle | ⟨held, holding⟩
    · cases idle
    · cases holding
  | granted => exact absurd rfl stays
  | leaving before | answered before | left before => cases before.symm.trans awaiting

theorem Overtaken.waiter (overtaken : Overtaken mutexName p q time grants s)
    (run : Run .simple serialization setup contract trace s) (different : p ≠ q)
    (does : ThreadStep serialization p monitors (s.process p) action consumed process' sent)
    (stays : acquires mutexName p s (p, action) = false) :
    Overtaken mutexName p q time grants (s.update p (process', sent)) := by
  have effect : MutexEffect p mutexName (s.process p) action consumed process' sent :=
    mutexEffect (wellFormed_run run p) (owning_run run p) does
  have mine := s.update_own p process' sent
  have others : (s.update p (process', sent)).process q = s.process q :=
    s.update_other different.symm ..
  have unreturned : action ≠ .acquired := by
    rintro rfl
    rw [acquires_of_awaiting overtaken.asking] at stays
    cases stays
  obtain ⟨a, inv, sim, -⟩ := simulated_unordered run mutexName
  have stamped : time ≤ (s.process p).currentLamportTime := by
    rw [← sim.clock]
    exact inv.own_clock p time (by rw [sim.phase, overtaken.asking]; rfl)
  refine overtaken.moved ?_ (by rw [others]) (by rw [others]) (by rw [others]; exact .inl) ?_
  · rw [mine, overtaken.asking]
    exact awaiting_step effect overtaken.asking unreturned
  · intro raw member agreement
    apply (mem_pending_acts does member).imp_right
    rintro ⟨-, new⟩
    rw [agreement_stamp effect new agreement]
    exact Nat.lt_succ_of_le stamped

theorem Overtaken.bystander (overtaken : Overtaken mutexName p q time grants s)
    (does : ThreadStep serialization self monitors (s.process self) action consumed process' sent)
    (first : p ≠ self) (second : q ≠ self) :
    Overtaken mutexName p q time grants (s.update self (process', sent)) := by
  have waiter : (s.update self (process', sent)).process p = s.process p :=
    s.update_other first ..
  have others : (s.update self (process', sent)).process q = s.process q :=
    s.update_other second ..
  apply overtaken.moved (by rw [waiter]) (by rw [others]) (by rw [others]) (by rw [others]; exact .inl)
  exact fun raw member _ =>
    .inl ((mem_pending_acts does member).resolve_right fun new => first new.1)

theorem Overtaken.elsewhere (overtaken : Overtaken mutexName p q time grants s)
    (asking : (s'.process p).phase mutexName = .awaiting time)
    (clock : (s.process q).currentLamportTime ≤ (s'.process q).currentLamportTime)
    (settled : ∀ own, (s'.process q).phase mutexName ≠ .awaiting own) :
    Overtaken mutexName p q time grants s' :=
  ⟨asking, overtaken.bounded, fun _ own awaiting => absurd awaiting (settled own),
    fun two => ⟨(overtaken.twice two).1.trans_le clock, fun own awaiting => absurd awaiting (settled own)⟩⟩

/-- A request that has been overtaken twice is the smaller one, and nothing is agreed to it. -/
theorem Overtaken.withheld (overtaken : Overtaken mutexName p q time grants s)
    (run : Run .simple serialization setup contract trace s) {own : LamportTime}
    (awaiting : (s.process q).phase mutexName = .awaiting own)
    (listed : p ∈ (s.process q).main.agreements mutexName) : grants ≠ 2 := by
  intro two
  obtain ⟨a, inv, sim, -⟩ := simulated_unordered run mutexName
  have smaller : ticket own q < ticket time p := by
    apply inv.agreed_order q p own time ((sim.phase q).trans awaiting)
    · exact .inr ((sim.counted q p).1 listed)
    · rw [sim.phase, overtaken.asking]
      rfl
  have larger : ticket time p < ticket own q :=
    ticket_lt.2 (.inl ((overtaken.twice two).2 own awaiting))
  exact lt_asymm smaller larger

/-- The steps of the process that overtakes. Its third request would be larger than the one
it has to get past. -/
theorem Overtaken.overtaker (overtaken : Overtaken mutexName p q time grants s)
    (run : Run .simple serialization setup contract trace s) (different : p ≠ q)
    (does : ThreadStep serialization q monitors (s.process q) action consumed process' sent) :
    Overtaken mutexName p q time
      (grants + if acquires mutexName q s (q, action) then 1 else 0)
      (s.update q (process', sent)) := by
  have effect : MutexEffect q mutexName (s.process q) action consumed process' sent :=
    mutexEffect (wellFormed_run run q) (owning_run run q) does
  have mine := s.update_own q process' sent
  have waiter : (s.update q (process', sent)).process p = s.process p :=
    s.update_other different ..
  have asking : ((s.update q (process', sent)).process p).phase mutexName = .awaiting time := by
    rw [waiter, overtaken.asking]
  have kept : ∀ raw ∈ (s.update q (process', sent)).pending p q, raw ∈ s.pending p q := by
    intro raw member
    exact (mem_pending_acts does member).resolve_right fun new => different new.1
  have clock : (s.process q).currentLamportTime ≤
      ((s.update q (process', sent)).process q).currentLamportTime := by
    rw [mine]
    exact threadStep_clock does
  obtain ⟨a, inv, sim, -⟩ := simulated_unordered run mutexName
  have ungranted : (action = .acquired → ∀ own, (s.process q).phase mutexName ≠ .awaiting own) →
      grants + (if acquires mutexName q s (q, action) then 1 else 0) = grants := by
    intro settled
    rw [if_neg, Nat.add_zero]
    intro returns
    obtain ⟨same, own, awaiting⟩ := awaiting_of_acquires (owning_run run) returns
    exact settled (Prod.mk.inj same).2 own awaiting
  cases effect with
  | quiet settled _ _ _ phase _ agreements =>
    rw [ungranted settled]
    refine overtaken.moved (by rw [waiter]) (by rw [mine, phase]) clock ?_ fun raw member _ => .inl (kept raw member)
    rw [mine, agreements]
    exact .inl
  | agreed _ _ _ phase _ agreements | deferred _ _ _ _ phase _ agreements =>
    rw [ungranted (by simp)]
    refine overtaken.moved (by rw [waiter]) (by rw [mine, phase]) clock ?_ fun raw member _ => .inl (kept raw member)
    rw [mine, agreements]
    exact .inl
  | @counted _ packet read _ phase _ agreements =>
    rw [ungranted (by simp)]
    refine overtaken.moved (by rw [waiter]) (by rw [mine, phase]) clock ?_ fun raw member _ => .inl (kept raw member)
    rw [mine, agreements]
    rintro (already | rfl)
    · exact .inl already
    · cases does with
      | dispatch received =>
        exact .inr ⟨_, received_pending received, read, received_clock run received⟩
  | leaving before _ phase =>
    rw [ungranted fun _ => by simp [before]]
    exact overtaken.elsewhere asking clock (by simp [mine, phase])
  | answered before _ _ phase =>
    rw [ungranted fun _ => by simp [before]]
    exact overtaken.elsewhere asking clock (by simp [mine, phase])
  | left before _ _ phase =>
    rw [ungranted fun _ => by simp [before]]
    exact overtaken.elsewhere asking clock (by simp [mine, phase])
  | requested _ ready _ clock' phase _ agreements =>
    have idle : ∀ own, (s.process q).phase mutexName ≠ .awaiting own := by
      rcases ready with idle | ⟨own, holding⟩
      · simp [idle]
      · simp [holding]
    rw [ungranted fun _ => idle]
    have absent := absent_of_unawaiting inv (by rwa [sim.phase]) p
    refine ⟨asking, overtaken.bounded, fun _ own _ => ⟨?_, ?_⟩, fun two => ⟨?_, ?_⟩⟩
    · intro raw member agreement
      cases absent.symm.trans (sim.token_agreed (kept raw member) agreement)
    · rw [mine, agreements, sim.counted, absent]
      simp
    · exact (overtaken.twice two).1.trans_le clock
    · intro own awaiting
      rw [mine, phase] at awaiting
      cases awaiting
      exact Nat.lt_succ_of_lt (overtaken.twice two).1
  | @granted _ own received before about collected complete clock' phase =>
    rw [acquires_of_awaiting before, if_pos rfl]
    have listed := counted_all run about complete collected p different
    have settled : ∀ own, ((s.update q (process', [])).process q).phase mutexName ≠
        .awaiting own := by
      simp [mine, phase]
    have twice := overtaken.withheld run before listed
    have bounded := overtaken.bounded
    refine ⟨asking, by omega, fun _ own awaiting => absurd awaiting (settled own), fun two => ⟨?_, ?_⟩⟩
    · have one : grants = 1 := by omega
      exact ((overtaken.once one own before).2 listed).trans_le clock
    · exact fun own awaiting => absurd awaiting (settled own)

theorem Overtaken.step (overtaken : Overtaken mutexName p q time grants s)
    (run : Run .simple serialization setup contract trace s) (different : p ≠ q)
    (taken : step .simple serialization s e = some s')
    (stays : acquires mutexName p s e = false) :
    Overtaken mutexName p q time (grants + if acquires mutexName q s e then 1 else 0) s' := by
  cases systemStep (wellFormed_run run) taken with
  | @receive self source raw rest listening head =>
    have kept : ∀ {α : Type} (read : Process n σ → α),
        read ((s.process self).receive .simple source raw) = read (s.process self) → ∀ r,
        read (Function.update s.process self ((s.process self).receive .simple source raw) r) =
          read (s.process r) :=
      fun read => read_update read
    have phase := kept (·.phase mutexName) rfl
    have agreements := kept (·.main.agreements mutexName) rfl
    refine overtaken.moved (phase p) (phase q) (clock_step (wellFormed_run run) taken q)
      (fun listed => .inl (agreements q ▸ listed)) ?_
    intro raw member _
    rw [pending_receive listening head] at member
    exact .inl member
  | updateTimestamp updating => exact absurd updating (not_updating run _ _)
  | @acts self action consumed process' sent does =>
    have unreturned : ∀ other, other ≠ self → acquires mutexName other s (self, action) = false := by
      intro other differs
      unfold acquires
      split
      · exact decide_eq_false fun both => differs both.1.symm
      · rfl
    by_cases first : p = self
    · subst first
      rw [unreturned q different.symm]
      exact overtaken.waiter run different does stays
    · by_cases second : q = self
      · subst second
        exact overtaken.overtaker run different does
      · rw [unreturned q second]
        exact overtaken.bystander does first second

theorem overtaken_queued
    (taken : step communicator serialization s₀ e = some s)
    (asks : queues mutexName p s₀ e = true) : ∃ time, Overtaken mutexName p q time 0 s := by
  obtain ⟨self, action⟩ := e
  unfold queues at asks
  split at asks
  next name id received caller acts main =>
    simp only at acts
    subst acts
    obtain ⟨rfl, rfl⟩ := of_decide_eq_true asks
    obtain ⟨outcome, queued, rfl⟩ := step_act (by intro source; simp) taken
    simp only [Process.act, Process.queue, main] at queued
    cases queued
    refine ⟨(s₀.process self).currentLamportTime + 1, ?_, by decide, by simp, by simp⟩
    simp only [System.update, Function.update_self, Process.phase, Process.sendOthers, Process.send]
    exact if_pos rfl
  next => cases asks

theorem overtaken_run
    (run : Run .simple serialization setup contract (later ++ (s₀, e) :: earlier) s)
    (different : p ≠ q) (asks : queues mutexName p s₀ e = true)
    (waits : ∀ entry ∈ later, acquires mutexName p entry.1 entry.2 = false) :
    ∃ time, Overtaken mutexName p q time
      (later.countP fun entry => acquires mutexName q entry.1 entry.2) s := by
  induction later generalizing s with
  | nil =>
    cases run with
    | next run may taken => exact overtaken_queued taken asks
  | cons entry later ih =>
    cases run with
    | next run may taken =>
      obtain ⟨time, overtaken⟩ := ih run fun entry member => waits entry (List.mem_cons_of_mem _ member)
      rw [List.countP_cons]
      exact ⟨time, overtaken.step run different taken (waits _ (List.mem_cons_self ..))⟩

/-- Between the request of one `acquireMutex` and its return, the same call of another
process returns at most twice. -/
theorem bounded_overtaking (run : Run .simple serialization setup contract trace s)
    (different : p ≠ q) (split : trace = later ++ (s₀, e) :: earlier)
    (asks : queues mutexName p s₀ e = true)
    (waits : ∀ entry ∈ later, acquires mutexName p entry.1 entry.2 = false) :
    later.countP (fun entry => acquires mutexName q entry.1 entry.2) ≤ 2 := by
  subst split
  obtain ⟨time, overtaken⟩ := overtaken_run run different asks waits
  exact overtaken.bounded

theorem bounded_overtaking_two : ∃ trace s, Run .simple unary (shared 2) (Obeying acquiresOnce) trace s ∧
    ∃ later s₀ e earlier, trace = later ++ (s₀, e) :: earlier ∧ queues board.1 1 s₀ e = true ∧
      (∀ entry ∈ later, acquires board.1 1 entry.1 entry.2 = false) ∧
      (later.countP fun entry => acquires board.1 0 entry.1 entry.2) = 2 ∧
      (later.countP fun entry => acquires board.1 0 entry.1 entry.2) ≤ 2 := by
  obtain ⟨trace, s, run, reached⟩ := exists_run .simple unary (shared 2) (Obeying acquiresOnce)
    [[(0, .lock board.1), (0, .queue)], deliver 0 1, [(1, .leave board), (1, .sendSync),
      (1, .unlockMonitor), (1, .leave board), (1, .sendSync), (1, .unlockMonitor),
      (1, .lock board.1), (1, .queue)], deliver 1 0, [(0, .acquired), (0, .unlock board.1),
      (0, .released), (0, .lock board.1), (0, .queue)], deliver 0 1, deliver 1 0, deliver 1 0,
      deliver 1 0, deliver 1 0, [(0, .acquired)]].flatten
    (fun trace _ => let later := trace.takeWhile fun entry => !queues board.1 1 entry.1 entry.2
      (match trace.dropWhile fun entry => !queues board.1 1 entry.1 entry.2 with
        | entry :: _ => queues board.1 1 entry.1 entry.2
        | [] => false) &&
      (later.all fun entry => !acquires board.1 1 entry.1 entry.2) &&
      (later.countP fun entry => acquires board.1 0 entry.1 entry.2) = 2)
    (by decide +kernel)
  obtain ⟨both, twice⟩ := Bool.and_eq_true_iff.1 reached
  obtain ⟨asks, waits⟩ := Bool.and_eq_true_iff.1 both
  have split := (List.takeWhile_append_dropWhile
    (p := fun entry => !queues board.1 1 entry.1 entry.2) (l := trace)).symm
  split at asks
  next entry earlier rest =>
    rw [rest] at split
    have unreturned : ∀ entry ∈ trace.takeWhile fun entry => !queues board.1 1 entry.1 entry.2,
        acquires board.1 1 entry.1 entry.2 = false := by
      simpa using waits
    exact ⟨trace, s, run, _, entry.1, entry.2, earlier, split, asks, unreturned,
      of_decide_eq_true twice, bounded_overtaking run (by decide) split asks unreturned⟩
  next => cases asks

end DistributedMonitor
