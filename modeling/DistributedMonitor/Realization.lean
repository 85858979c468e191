import DistributedMonitor.Transport

/-! The other direction: what processes do with whole packets they can do over MPI, as long as no
clock wraps and no message is too long. A packet is received there in one go. -/

namespace DistributedMonitor
open Library

variable {n : ℕ} {σ Content Thread : Type} {kind : Communicator}
  {communicator : ICommunicator n Content Thread} {carrier : Carrier kind communicator}
  {serialization : Serialization σ} {setup : Setup n σ} {self source p : ProcessId n}
  {sent : List (Envelope n)} {s s' : Wired n σ Content Thread} {a a' : System n σ}
  {action : Action n σ} {letters letters' : PacketNetwork n}
  {network : Wire.Network n Content Thread} {raw : RawPacket} {rest : List RawPacket}

/-- No clock reaches its wrap in the step, and what it sends fits the `int` of MPI. -/
def roomy (serialization : Serialization σ) (a : System n σ) (e : Event n σ) : Bool :=
  match e.2 with
  | .receive source => (a.channel source e.1).head?.all fun raw =>
      decide (max raw.lamportTime (a.process e.1).currentLamportTime + 1 < UInt64.size)
  | action => ((a.process e.1).act serialization e.1 action).all fun outcome =>
      decide (outcome.1.currentLamportTime < UInt64.size) &&
        outcome.2.all fun envelope => decide (Wire.Fits envelope.packet.message)

theorem roomy_acts (other : action.isReceive = false) {outcome : Outcome n σ}
    (acts : (a.process self).act serialization self action = some outcome)
    (room : roomy serialization a (self, action) = true) :
    (decide (outcome.1.currentLamportTime < UInt64.size) &&
      outcome.2.all fun envelope => decide (Wire.Fits envelope.packet.message)) = true := by
  cases action with
  | receive => cases other
  | _ =>
    simp only [roomy, acts] at room
    exact room

theorem sends_enabled (carrier : Carrier kind communicator) (self : ProcessId n)
    (refines : Wire.Refines carrier.format carrier.shown network letters)
    (short : ∀ envelope ∈ sent, Wire.Fits envelope.packet.message) :
    ∃ network', communicator.sendAll self network sent = some network' := by
  induction sent generalizing network letters with
  | nil => exact ⟨network, rfl⟩
  | cons envelope rest ih =>
    obtain ⟨fits, shorter⟩ := List.forall_mem_cons.1 short
    have limit : envelope.packet.message.length < Wire.packedLimit := by
      simp only [Wire.Fits] at fits
      simp only [Wire.packedLimit]
      omega
    have matched := carrier.step (self, .send envelope.packet.messageType.encoded
      envelope.packet.message envelope.recipients mpiDefaultTag) refines (decide_eq_true limit)
    simp only [Wire.letterStep, limit, dif_pos] at matched
    cases taken : communicator.step network (self, .send envelope.packet.messageType.encoded
        envelope.packet.message envelope.recipients mpiDefaultTag) with
    | none =>
      rw [taken] at matched
      cases matched
    | some network₁ =>
      rw [taken] at matched
      cases matched with
      | some refines₁ =>
        obtain ⟨network', sends⟩ := ih refines₁ shorter
        refine ⟨network', ?_⟩
        rw [ICommunicator.sendAll, taken, Option.bind_some, sends]

def Settled (kind : Communicator) (s : Wired n σ Content Thread) (letters : PacketNetwork n)
    (p : ProcessId n) : Prop :=
  letters.thread p = .listening ∧ (∀ packet, (s.process p).receiving ≠ .updating packet) ∨
    kind = .optimized ∧ ∃ source letter, letters.thread p = .updated source letter

theorem Settled.same (settled : Settled kind s letters p) (thread : letters'.thread p = letters.thread p)
    (process : s'.process p = s.process p) : Settled kind s' letters' p := by
  unfold Settled
  rw [thread, process]
  exact settled

namespace Carried

theorem settled_listening (carried : Carried carrier s letters a) (settled : Settled kind s letters self)
    (steady : ∀ packet, (a.process self).receiving ≠ .updating packet) :
    letters.thread self = .listening ∧ (s.process self).receiving = (a.process self).receiving := by
  have hears := carried.hears self
  generalize (a.process self).receiving = receiving at hears steady ⊢
  generalize (s.process self).receiving = receiving' at hears ⊢
  rcases settled with ⟨idle, -⟩ | ⟨rfl, source, letter, here⟩
  · rw [idle] at hears
    cases hears
    exact ⟨idle, rfl⟩
  · rw [here] at hears
    cases hears
    exact absurd rfl (steady _)

theorem acts_back (carried : Carried carrier s letters a) (settled : Settled kind s letters self)
    (other : action.isReceive = false) {outcome : Outcome n σ}
    (acts : (a.process self).act serialization self action = some outcome) :
    ∃ outcome', (s.own self).act serialization self action = some outcome' ∧
      (outcome'.1.receiving = (s.process self).receiving ∨ outcome'.1.receiving = .listening) := by
  by_cases main : action.isMain = true
  · rw [carried.process self, act_receiving main] at acts
    obtain ⟨outcome', acts', rfl⟩ := Option.map_eq_some_iff.1 acts
    have same : outcome'.1.receiving = (s.own self).receiving :=
      mainStep_receiving (mainStep_of_act main acts')
    exact ⟨outcome', acts', .inl same⟩
  · cases action with
    | receive | updateTimestamp => cases other
    | dispatch =>
      obtain ⟨packet, received, listens⟩ := act_dispatch acts
      have idle := carried.settled_listening settled fun other same => by
        rw [received] at same
        cases same
      have same : a.process self = s.own self := by
        rw [carried.process self, ← idle.2]
        rfl
      exact ⟨outcome, same ▸ acts, .inr listens⟩
    | _ => exact absurd rfl main

def Realized (carrier : Carrier kind communicator) (serialization : Serialization σ)
    (s : Wired n σ Content Thread) (a a' : System n σ) (e : Event n σ) : Prop :=
  ∃ later s' letters', Execution (Wired.step communicator serialization) (· = s)
      (fun _ s e => s.fits communicator serialization e = true) later s' ∧
    Carried carrier s' letters' a' ∧ (∀ p, Settled kind s' letters' p) ∧
    recorded wiredActs later = (systemActs a e).toList

theorem fits_act (carried : Carried carrier s letters a) (other : action.isReceive = false)
    (room : roomy serialization a (self, action) = true) :
    s.fits communicator serialization (self, .act action) = true := by
  cases acts : (s.own self).act serialization self action with
  | none => simp only [Wired.fits, acts, Option.all_none]
  | some outcome =>
    obtain ⟨receiving, -, acts'⟩ := carried.acts other acts
    have room' := roomy_acts other acts' room
    simp only [Wired.fits, acts, Option.all_some]
    exact room'

theorem acts_on (carried : Carried carrier s letters a) (settled : Settled kind s letters self)
    (other : action.isReceive = false)
    (fits : s.fits communicator serialization (self, .act action) = true)
    (taken : DistributedMonitor.step kind serialization a (self, action) = some a') :
    ∃ process network, s.step communicator serialization (self, .act action) =
        some ⟨Function.update s.process self process, network⟩ ∧
      (process.receiving = (s.process self).receiving ∨ process.receiving = .listening) := by
  rw [step_acts other] at taken
  obtain ⟨outcome, acts, -⟩ := Option.map_eq_some_iff.1 taken
  obtain ⟨outcome', acts', receiving⟩ := carried.acts_back settled other acts
  simp only [Wired.fits, acts', Option.all_some] at fits
  have short : ∀ envelope ∈ outcome'.2, Wire.Fits envelope.packet.message := by
    intro envelope member
    exact of_decide_eq_true (List.all_eq_true.1 (Bool.and_eq_true_iff.1 fits).2 envelope member)
  obtain ⟨network, sends⟩ := sends_enabled carrier self carried.refines short
  refine ⟨outcome'.1, network, ?_, receiving⟩
  simp only [Wired.step, other, acts', Option.bind_some, sends, Option.map_some, Bool.false_eq_true,
    if_false]

theorem realizes_act (carried : Carried carrier s letters a) (settled : ∀ p, Settled kind s letters p)
    (other : action.isReceive = false) (room : roomy serialization a (self, action) = true)
    (taken : DistributedMonitor.step kind serialization a (self, action) = some a') :
    Realized carrier serialization s a a' (self, action) := by
  have fits : s.fits communicator serialization (self, .act action) = true :=
    carried.fits_act other room
  obtain ⟨process, network, goes, receiving⟩ := carried.acts_on (settled self) other fits taken
  obtain ⟨letters', a'', threads, stepped, carried'⟩ := carried.act fits goes
  rw [taken] at stepped
  cases stepped
  have shows : systemActs a (self, action) = some (self, action) := by
    simp only [systemActs, other]
    rfl
  refine ⟨[(s, self, .act action)], _, letters', .next (.start rfl) fits goes, carried', fun p => ?_, ?_⟩
  · by_cases mine : p = self
    · subst mine
      rcases settled p with ⟨idle, steady⟩ | ⟨optimized, here⟩
      · refine .inl ⟨by rw [threads, idle], fun packet => ?_⟩
        simp only [Function.update_self]
        rcases receiving with same | listens
        · rw [same]
          exact steady packet
        · rw [listens]
          intro same
          cases same
      · exact .inr ⟨optimized, by rw [threads]; exact here⟩
    · exact (settled p).same (by rw [threads]) (Function.update_of_ne mine ..)
  · rw [shows]
    rfl

theorem reads (carried : Carried carrier s letters a) (serialization : Serialization σ)
    (here : letters.thread self = .listening) (idle : (s.process self).receiving = .listening)
    (head : a.channel source self = raw :: rest) : ∃ later s' letters' letter,
      Execution (Wired.step communicator serialization) (· = s)
        (fun _ s e => s.fits communicator serialization e = true) later s' ∧
      Carried carrier s' letters' a ∧ letters'.thread self = .read source letter ∧
      (∀ p, p ≠ self → letters'.thread p = letters.thread p) ∧ s'.process = s.process ∧
      recorded wiredActs later = [] := by
  have waiting := carried.channel source self
  rw [here, head] at waiting
  cases queue : letters.channel source self with
  | nil =>
    rw [queue] at waiting
    cases waiting
  | cons first more =>
    have goes : Wire.letterStep letters (self, .accept none source) = some
        ((letters.leave source self more).goto self (.accepted none source first.2)) := by
      simp only [Wire.letterStep, here, queue, Wire.firstTagged, Option.all_none, if_true,
        Option.map_some]
    obtain ⟨network₁, taken⟩ := carried.enabled (self, .accept none source) rfl (by rw [goes]; rfl)
    have accepts : s.step communicator serialization (self, .accept source) =
        some { s with network := network₁ } := by
      simp only [Wired.step, idle, if_true, taken, Option.map_some]
    obtain ⟨letters₁, stepped, carried₁⟩ := carried.accept accepts
    rw [goes] at stepped
    cases stepped
    set letters₁ := (letters.leave source self more).goto self (.accepted none source first.2)
    have goes₁ : Wire.letterStep letters₁ (self, .read) =
        some (letters₁.goto self (.read source first.2)) := by
      simp only [Wire.letterStep, letters₁, Wire.Network.goto_self]
    obtain ⟨network₂, taken₁⟩ := carried₁.enabled (self, .read) rfl (by rw [goes₁]; rfl)
    have reads : Wired.step communicator serialization { s with network := network₁ } (self, .read) =
        some { s with network := network₂ } := by
      simp only [Wired.step, taken₁, Option.map_some]
    obtain ⟨letters₂, stepped, carried₂⟩ := carried₁.read reads
    rw [goes₁] at stepped
    cases stepped
    refine ⟨_, _, _, first.2, .next (.next (.start rfl) rfl accepts) rfl reads, carried₂,
      Wire.Network.goto_self .., fun p other => ?_, rfl, rfl⟩
    rw [Wire.Network.goto_thread, if_neg other, Wire.Network.goto_thread, if_neg other]
    rfl

theorem update_fits (carried : Carried carrier s letters a) (serialization : Serialization σ)
    {letter : PacketLetter} (here : letters.thread self = .read source letter)
    (head : a.channel source self = raw :: rest)
    (small : max raw.lamportTime (a.process self).currentLamportTime + 1 < UInt64.size)
    (taken : communicator.step s.network (self, .update) = some network) :
    s.fits communicator serialization (self, .update) = true := by
  obtain ⟨letters', stepped, refines⟩ := carried.letters_step rfl taken
  simp only [Wire.letterStep, here, Option.some.injEq] at stepped
  subst stepped
  have waiting := carried.channel source self
  simp only [here, head, inHand, if_true, List.singleton_append] at waiting
  cases waiting with
  | cons means _ =>
    have clock : (a.process self).currentLamportTime = (letters.currentLamportTime self).toNat := by
      rw [carried.process self, ← carried.refines.clock]
      rfl
    rw [clock, ← means.lamportTime, ← Wire.max_toNat] at small
    simp only [Wired.fits, taken, Option.all_some, decide_eq_true_eq, refines.clock,
      carried.refines.clock, Wire.Network.goto, Wire.Network.updateClock, Function.update_self]
    rw [UInt64.lt_iff_toNat_lt, Wire.add_one_toNat small, Wire.max_toNat]
    omega

theorem ends (carried : Carried carrier s letters a) (serialization : Serialization σ)
    {letter : PacketLetter} (here : letters.thread self = .updated source letter) :
    ∃ s' packet, s.step communicator serialization (self, .finish) = some s' ∧
      s'.process = Function.update s.process self
        { s.process self with receiving := .received packet } := by
  obtain ⟨packet, returned⟩ := carried.finishes here
  obtain ⟨network, taken⟩ := carried.enabled (self, .finish) rfl
    (by simp only [Wire.letterStep, here, Option.isSome_some])
  refine ⟨⟨Function.update s.process self { s.process self with receiving := .received packet },
    network⟩, packet, ?_, rfl⟩
  simp only [Wired.step, returned, taken, Option.bind_some, Option.map_some]

theorem settled_finish {letter : PacketLetter} {packet : Packet n}
    (here : letters.thread self = .updated source letter)
    (stepped : Wire.letterStep letters (self, .finish) = some letters')
    (process : s'.process = Function.update s.process self
      { s.process self with receiving := .received packet })
    (settled : ∀ p, p ≠ self → Settled kind s letters p) (p : ProcessId n) :
    Settled kind s' letters' p := by
  simp only [Wire.letterStep, here, Option.some.injEq] at stepped
  subst stepped
  by_cases mine : p = self
  · subst mine
    refine .inl ⟨Wire.Network.goto_self .., fun packet => ?_⟩
    rw [process, Function.update_self]
    intro same
    cases same
  · refine (settled p mine).same ?_ ?_
    · rw [Wire.Network.goto_thread, if_neg mine]
    · rw [process, Function.update_of_ne mine]

theorem realizes_receive (carried : Carried carrier s letters a) (settled : ∀ p, Settled kind s letters p)
    (room : roomy serialization a (self, .receive source) = true)
    (taken : DistributedMonitor.step kind serialization a (self, .receive source) = some a') :
    Realized carrier serialization s a a' (self, .receive source) := by
  have received := taken
  simp only [DistributedMonitor.step, System.receive] at taken
  split at taken
  next raw rest listens head =>
    simp only [roomy, head, List.head?_cons, Option.all_some, decide_eq_true_eq] at room
    obtain ⟨here, idle⟩ := carried.settled_listening (settled self) fun other same => by
      rw [listens] at same
      cases same
    obtain ⟨later, s₁, letters₁, letter, run, carried₁, here₁, others, process, silent⟩ :=
      carried.reads serialization here (idle.trans listens) head
    obtain ⟨network, updates⟩ := carried₁.enabled (self, .update) rfl
      (by simp only [Wire.letterStep, here₁, Option.isSome_some])
    have fits := carried₁.update_fits serialization here₁ head room updates
    have goes : s₁.step communicator serialization (self, .update) =
        some { s₁ with network := network } := by
      simp only [Wired.step, updates, Option.map_some]
    obtain ⟨letters₂, a₂, source', letter', here', stepped, received', carried₂⟩ :=
      carried₁.update fits goes
    rw [here₁] at here'
    cases here'
    rw [received] at received'
    cases received'
    simp only [Wire.letterStep, here₁, Option.some.injEq] at stepped
    have here₂ : letters₂.thread self = .updated source letter := by
      rw [← stepped]
      exact Wire.Network.goto_self ..
    have settled₂ : ∀ p, p ≠ self → Settled kind { s₁ with network := network } letters₂ p := by
      intro p other
      refine (settled p).same ?_ (congrFun process p)
      rw [← stepped, Wire.Network.goto_thread, if_neg other]
      exact others p other
    have run₂ := run.next fits goes
    have silent₂ : recorded wiredActs ((s₁, (self, WiredAction.update)) :: later) = [] := by
      rw [recorded_none (wiredActs_none rfl), silent]
    cases kind with
    | simple =>
      obtain ⟨s₃, packet, ended, process₃⟩ := carried₂.ends serialization here₂
      obtain ⟨letters₃, a₃, stepped₃, ⟨-, rfl⟩ | ⟨other, -⟩, carried₃⟩ := carried₂.finish ended
      · refine ⟨_, s₃, letters₃, run₂.next rfl ended, carried₃,
          settled_finish here₂ stepped₃ process₃ settled₂, ?_⟩
        rw [recorded_none (wiredActs_none rfl), silent₂]
        rfl
      · cases other
    | optimized =>
      refine ⟨_, _, letters₂, run₂, carried₂, fun p => ?_, silent₂⟩
      by_cases mine : p = self
      · exact .inr ⟨rfl, source, letter, mine ▸ here₂⟩
      · exact settled₂ p mine
  next => cases taken

theorem realizes_updateTimestamp (carried : Carried carrier s letters a)
    (settled : ∀ p, Settled kind s letters p)
    (taken : DistributedMonitor.step kind serialization a (self, .updateTimestamp) = some a') :
    Realized carrier serialization s a a' (self, .updateTimestamp) := by
  have updated := taken
  obtain ⟨outcome, acts, -⟩ := Option.map_eq_some_iff.1 taken
  obtain ⟨process, updates, -⟩ := Option.map_eq_some_iff.1 acts
  unfold Process.updateTimestamp at updates
  split at updates
  next packet updating =>
    rcases settled self with ⟨idle, steady⟩ | ⟨rfl, source, letter, here⟩
    · have hears := carried.hears self
      rw [idle, updating] at hears
      generalize (s.process self).receiving = receiving at hears steady
      cases hears
      exact absurd rfl (steady packet)
    · obtain ⟨s', packet', ended, process'⟩ := carried.ends serialization here
      obtain ⟨letters', a'', stepped, ⟨other, -⟩ | ⟨-, updated'⟩, carried'⟩ := carried.finish ended
      · cases other
      · rw [updated] at updated'
        cases updated'
        refine ⟨_, s', letters', .next (.start rfl) rfl ended, carried',
          settled_finish here stepped process' fun p _ => settled p, ?_⟩
        exact recorded_none (wiredActs_none rfl)
  next => cases updates

theorem realizes (carried : Carried carrier s letters a) (settled : ∀ p, Settled kind s letters p)
    {e : Event n σ} (room : roomy serialization a e = true)
    (taken : DistributedMonitor.step kind serialization a e = some a') :
    Realized carrier serialization s a a' e := by
  obtain ⟨self, action⟩ := e
  cases action with
  | receive source => exact carried.realizes_receive settled room taken
  | updateTimestamp => exact carried.realizes_updateTimestamp settled taken
  | _ => exact carried.realizes_act settled rfl room taken

end Carried

theorem realized_run (carrier : Carrier kind communicator) {trace : Trace (System n σ) (Event n σ)}
    (run : Run kind serialization setup (Obeying (roomy serialization)) trace a) :
    ∃ trace' s letters, WiredRun communicator serialization setup
        (fun _ s e => s.fits communicator serialization e = true) trace' s ∧
      Carried carrier s letters a ∧ (∀ p, Settled kind s letters p) ∧
      recorded wiredActs trace' = recorded systemActs trace := by
  apply run.history_invariant (I := fun trace a => ∃ trace' s letters,
    WiredRun communicator serialization setup
        (fun _ s e => s.fits communicator serialization e = true) trace' s ∧
      Carried carrier s letters a ∧ (∀ p, Settled kind s letters p) ∧
      recorded wiredActs trace' = recorded systemActs trace)
  · rintro _ rfl
    exact ⟨[], _, _, .start rfl, carried_start carrier setup,
      fun p => .inl ⟨rfl, fun _ same => by cases same⟩, rfl⟩
  · intro trace a e a' _ ⟨trace', s, letters, run', carried, settled, same⟩ room taken
    obtain ⟨later, s', letters', more, carried', settled', shown⟩ := carried.realizes settled room taken
    refine ⟨later ++ trace', s', letters', Execution.append more run', carried', settled', ?_⟩
    have both : recorded wiredActs (later ++ trace') =
        recorded wiredActs later ++ recorded wiredActs trace' := List.filterMap_append
    rw [both, shown, same]
    cases shows : systemActs a e with
    | none => rw [recorded_none shows]; rfl
    | some act => rw [recorded_some shows]; rfl

/-- What the processes do with whole packets they can do over MPI, with either communicator: the
same steps in the same order lead to the same processes. -/
theorem mpi_realizes {trace : Trace (System n σ) (Event n σ)}
    (run : Run kind serialization setup (Obeying (roomy serialization)) trace a) :
    ∃ trace' s, WiredRun (kind.mpi n) serialization setup
        (fun _ s e => s.fits (kind.mpi n) serialization e = true) trace' s ∧
      recorded wiredActs trace' = recorded systemActs trace ∧
      ∀ p, a.process p = { s.own p with receiving := (a.process p).receiving } := by
  obtain ⟨trace', s, letters, run', carried, -, same⟩ := realized_run (kind.carries n) run
  exact ⟨trace', s, run', same, carried.process⟩

theorem mpi_realizes_two : ∃ trace s, WiredRun (Communicator.optimized.mpi 2) unary (plain 2)
      (fun _ s e => s.fits (Communicator.optimized.mpi 2) unary e = true) trace s ∧
    (s.process 0).holds gate = true ∧ (s.process 1).main.collecting? = some gate := by
  obtain ⟨trace, a, run, reached⟩ := exists_run .optimized unary (plain 2) (Obeying (roomy unary))
    [(0, .lock gate), (0, .queue), (1, .lock gate), (1, .receive 0), (1, .queue),
      (1, .updateTimestamp), (1, .dispatch), (0, .receive 1), (0, .updateTimestamp), (0, .dispatch),
      (0, .receive 1), (0, .updateTimestamp), (0, .dispatch), (0, .acquired)]
    (fun _ a => (a.process 0).holds gate ∧ (a.process 1).main.collecting? = some gate)
    (by decide +kernel)
  obtain ⟨trace', s, run', -, same⟩ := mpi_realizes run
  obtain ⟨holds, collects⟩ := of_decide_eq_true reached
  rw [same 0] at holds
  rw [same 1] at collects
  exact ⟨trace', s, run', holds, collects⟩

end DistributedMonitor
