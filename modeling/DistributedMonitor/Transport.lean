import DistributedMonitor.Wired

/-! What the processes do over MPI they do with whole packets as well: the bytes of either
communicator show letters, the letters are packets of the system, and a step over MPI is a step
of the system or nothing there. -/

namespace DistributedMonitor
open Library

variable {n : ℕ} {σ Content Thread : Type}

abbrev PacketLetter := Wire.Letter Wire.packedLimit
abbrev PacketThread (n : ℕ) := Wire.LetterThread n Wire.packedLimit
abbrev PacketNetwork (n : ℕ) := Wire.LetterNetwork n Wire.packedLimit

def Communicator.stamped (kind : Communicator) (now : UInt64) (packet : Wire.Packet n) :
    Wire.Packet n :=
  match kind with
  | .simple => packet
  | .optimized => { packet with lamportTime := now }

def Communicator.received (kind : Communicator) (packet : Packet n) : ReceivingThread n :=
  match kind with
  | .simple => .received packet
  | .optimized => .updating packet

/-- A communicator that can do with its bytes what can be done with letters, and no more. -/
structure Carrier (kind : Communicator) (communicator : ICommunicator n Content Thread) where
  format : Wire.Format Wire.packedLimit Content
  shown : PacketThread n → Thread
  starts : Wire.Refines format shown communicator.start ⟨fun _ => 0, fun _ => .listening, fun _ _ => []⟩
  step : ∀ {network letters} e, Wire.Refines format shown network letters →
    Wire.within Wire.packedLimit e = true → Option.Rel (Wire.Refines format shown)
      (communicator.step network e) (Wire.letterStep letters e)
  returns : ∀ {network letters self source letter}, Wire.Refines format shown network letters →
    letters.thread self = .updated source letter → communicator.returned network (self, .finish) =
      some (kind.stamped (letters.currentLamportTime self) (letter.packet source))

def simpleCarrier (n : ℕ) : Carrier .simple (mpiSimpleCommunicator n) where
  format := Wire.simpleFormat
  shown := Wire.LetterThread.simple
  starts := ⟨rfl, fun _ => rfl, fun _ _ => .closed []⟩
  step _ refines may := Wire.simple_step Wire.packedLimit_small refines may
  returns {network letters self source letter} refines here := by
    have thread := refines.thread self
    rw [here] at thread
    simp only [mpiSimpleCommunicator, Wire.simpleReturned, thread, Wire.LetterThread.simple]
    rfl

def optimizedCarrier (n : ℕ) : Carrier .optimized (mpiOptimizedCommunicator n) where
  format := Wire.optimizedFormat
  shown := Wire.LetterThread.optimized
  starts := ⟨rfl, fun _ => rfl, fun _ _ => .closed []⟩
  step _ refines may := Wire.optimized_step refines may
  returns {network letters self source letter} refines here := by
    have thread := refines.thread self
    rw [here] at thread
    simp only [mpiOptimizedCommunicator, Wire.optimizedReturned, thread, Wire.LetterThread.optimized,
      refines.clock]
    rfl

structure Means (letter : PacketLetter) (raw : RawPacket) : Prop where
  lamportTime : letter.lamportTime.toNat = raw.lamportTime
  messageType : letter.messageType = raw.messageType.encoded
  message : letter.message = raw.message

theorem Means.restamped {letter : PacketLetter} {raw : RawPacket} (means : Means letter raw)
    (source : ProcessId n) (now : UInt64) :
    Wire.Packet.decoded { letter.packet source with lamportTime := now } =
      some { toPacket raw source with lamportTime := now.toNat } := by
  simp only [Wire.Packet.decoded, Wire.Letter.packet, means.messageType, decoded_encoded,
    Option.map_some, means.message]
  rfl

theorem Means.decoded {letter : PacketLetter} {raw : RawPacket} (means : Means letter raw)
    (source : ProcessId n) : (letter.packet source).decoded = some (toPacket raw source) := by
  rw [show letter.packet source = { letter.packet source with lamportTime := letter.lamportTime } from rfl,
    means.restamped, means.lamportTime]
  rfl

def inHand (source : ProcessId n) : PacketThread n → List PacketLetter
  | .accepted _ source' letter | .read source' letter => if source' = source then [letter] else []
  | _ => []

inductive Hears (kind : Communicator) : PacketThread n → ReceivingThread n → ReceivingThread n → Prop
  | listening (receiving : ReceivingThread n) : Hears kind .listening receiving receiving
  | accepted {tag : Option Wire.MpiTag} {source : ProcessId n} {letter : PacketLetter} :
      Hears kind (.accepted tag source letter) .listening .listening
  | read {source : ProcessId n} {letter : PacketLetter} :
      Hears kind (.read source letter) .listening .listening
  | updated {source : ProcessId n} {letter : PacketLetter} {raw : RawPacket}
      (means : Means letter raw) :
      Hears kind (.updated source letter) .listening (kind.received (toPacket raw source))

def receiveNext : PacketThread n → Option (WiredAction n σ)
  | .listening => none
  | .accepted .. => some .read
  | .read .. => some .update
  | .updated .. => some .finish

theorem receiveNext_none {thread : PacketThread n}
    (nothing : (receiveNext thread : Option (WiredAction n σ)) = none) : thread = .listening := by
  cases thread with
  | listening => rfl
  | _ => cases nothing

variable {kind : Communicator} {communicator : ICommunicator n Content Thread}
  {carrier : Carrier kind communicator} {serialization : Serialization σ} {setup : Setup n σ}
  {self source : ProcessId n} {sent : List (Envelope n)} {s s' : Wired n σ Content Thread}
  {a : System n σ} {action : Action n σ} {letters : PacketNetwork n}
  {network network' : Wire.Network n Content Thread}

structure Carried (carrier : Carrier kind communicator) (s : Wired n σ Content Thread)
    (letters : PacketNetwork n) (a : System n σ) : Prop where
  refines : Wire.Refines carrier.format carrier.shown s.network letters
  hears : ∀ p, Hears kind (letters.thread p) (s.process p).receiving (a.process p).receiving
  process : ∀ p, a.process p = { s.own p with receiving := (a.process p).receiving }
  channel : ∀ source p, List.Forall₂ Means
    (inHand source (letters.thread p) ++ (letters.channel source p).map Prod.snd) (a.channel source p)

theorem addressed_cons (envelope : Envelope n) (rest : List (Envelope n)) (p : ProcessId n) :
    addressed (envelope :: rest) p =
      (if p ∈ envelope.recipients then [envelope.packet.raw] else []) ++ addressed rest p := by
  unfold addressed
  by_cases listed : p ∈ envelope.recipients <;> simp [listed]

theorem sends_letters {last : LamportTime} (carrier : Carrier kind communicator)
    (refines : Wire.Refines carrier.format carrier.shown network letters)
    (stamped : StampedFrom self (letters.currentLamportTime self).toNat sent last)
    (small : last < UInt64.size) (short : ∀ envelope ∈ sent, Wire.Fits envelope.packet.message)
    (sends : communicator.sendAll self network sent = some network') :
    ∃ letters', Wire.Refines carrier.format carrier.shown network' letters' ∧
      letters'.thread = letters.thread ∧ (letters'.currentLamportTime self).toNat = last ∧
      (∀ p, p ≠ self → letters'.currentLamportTime p = letters.currentLamportTime p) ∧
      ∀ source p, ∃ more, letters'.channel source p = letters.channel source p ++ more ∧
        List.Forall₂ Means (more.map Prod.snd) (if source = self then addressed sent p else []) := by
  induction sent generalizing network letters with
  | nil =>
    cases sends
    generalize time : (letters.currentLamportTime self).toNat = now at stamped
    cases stamped
    refine ⟨letters, refines, rfl, time, fun _ _ => rfl, fun source p => ⟨[], by simp, ?_⟩⟩
    split_ifs <;> exact .nil
  | cons envelope rest ih =>
    obtain ⟨fits, shorter⟩ := List.forall_mem_cons.1 short
    obtain ⟨network₁, sends₁, sendsRest⟩ := Option.bind_eq_some_iff.1 sends
    cases stamped with
    | @more _ _ messageType message recipients _ later =>
      have below : (letters.currentLamportTime self).toNat + 1 < UInt64.size := later.le.trans_lt small
      have limit : message.length < Wire.packedLimit := by
        simp only [Wire.Fits] at fits
        simp only [Wire.packedLimit]
        omega
      have matched := carrier.step (self, .send messageType.encoded message recipients mpiDefaultTag)
        refines (decide_eq_true limit)
      rw [sends₁] at matched
      simp only [Wire.letterStep, limit, dif_pos] at matched
      cases matched with
      | some refines₁ =>
        have clock := Wire.add_one_toNat below
        rw [← clock] at later
        obtain ⟨letters', refines', thread, time, others, channel⟩ :=
          ih refines₁ (by simpa only [Wire.Network.send, Function.update_self] using later) shorter
            sendsRest
        refine ⟨letters', refines', thread, time, fun p other => ?_, fun source p => ?_⟩
        · rw [others p other]
          exact Function.update_of_ne other ..
        · obtain ⟨more, appended, means⟩ := channel source p
          by_cases own : source = self
          · by_cases listed : p ∈ recipients
            · let letter : PacketLetter :=
                ⟨letters.currentLamportTime self + 1, messageType.encoded, message, limit⟩
              refine ⟨(mpiDefaultTag, letter) :: more, ?_, ?_⟩
              · rw [appended]
                simp only [Wire.Network.send, own, listed, and_self, if_true, List.append_assoc,
                  List.singleton_append]
                rfl
              · rw [if_pos own] at means ⊢
                rw [addressed_cons, if_pos listed]
                exact .cons ⟨clock, rfl, rfl⟩ means
            · refine ⟨more, ?_, ?_⟩
              · rw [appended]
                simp only [Wire.Network.send, listed, and_false, if_false]
              · rw [if_pos own] at means ⊢
                rw [addressed_cons, if_neg listed]
                exact means
          · refine ⟨more, ?_, ?_⟩
            · rw [appended]
              simp only [Wire.Network.send, own, false_and, if_false]
            · rw [if_neg own] at means ⊢
              exact means

theorem step_acts (other : action.isReceive = false) :
    step kind serialization a (self, action) =
      ((a.process self).act serialization self action).map (a.update self) := by
  cases action with
  | receive => cases other
  | _ => rfl

theorem act_dispatch {process : Process n σ} {outcome : Outcome n σ}
    (acts : process.act serialization self .dispatch = some outcome) : ∃ packet,
      process.receiving = .received packet ∧ outcome.1.receiving = .listening := by
  simp only [Process.act, Process.dispatchReceived] at acts
  split at acts
  next packet received =>
    split_ifs at acts
    cases dispatches : process.dispatch serialization self packet with
    | error error =>
      rw [dispatches] at acts
      cases acts
    | ok outcome' =>
      rw [dispatches] at acts
      cases acts
      exact ⟨packet, received, dispatch_listening dispatches⟩
  next => cases acts

theorem firstTagged_any {messages rest : List (Wire.MpiTag × PacketLetter)} {letter : PacketLetter}
    (found : Wire.firstTagged none messages = some (letter, rest)) :
    ∃ tag, messages = (tag, letter) :: rest := by
  cases messages with
  | nil => cases found
  | cons first others =>
    cases found
    exact ⟨first.1, rfl⟩

theorem tick_toNat {time now : UInt64} (fits : now < max time now + 1) :
    (max time now + 1).toNat = max time.toNat now.toNat + 1 := by
  rw [← Wire.max_toNat]
  by_cases small : (max time now).toNat + 1 < UInt64.size
  · exact Wire.add_one_toNat small
  · have bound := (max time now).toNat_lt
    have less := UInt64.lt_iff_toNat_lt.1 fits
    rw [UInt64.toNat_add, UInt64.toNat_one] at less
    simp only [UInt64.size] at small
    omega

theorem receive_head {raw : RawPacket} {rest : List RawPacket}
    (listening : (a.process self).receiving = .listening)
    (head : a.channel source self = raw :: rest) :
    step kind serialization a (self, .receive source) = some
      { process := Function.update a.process self ((a.process self).receive kind source raw)
        channel := fun from' to' =>
          if from' = source ∧ to' = self then rest else a.channel from' to' } := by
  simp only [step, System.receive, listening, head]

namespace Carried

theorem listening (carried : Carried carrier s letters a) {packet : Packet n}
    (received : (s.process self).receiving = .received packet) :
    letters.thread self = .listening ∧ (a.process self).receiving = .received packet := by
  have hears := carried.hears self
  rw [received] at hears
  generalize letters.thread self = thread at hears
  generalize (a.process self).receiving = receiving at hears
  cases hears
  exact ⟨rfl, rfl⟩

theorem acts (carried : Carried carrier s letters a) (other : action.isReceive = false)
    {outcome : Outcome n σ} (acts : (s.own self).act serialization self action = some outcome) :
    ∃ receiving, Hears kind (letters.thread self) outcome.1.receiving receiving ∧
      (a.process self).act serialization self action =
        some ({ outcome.1 with receiving }, outcome.2) := by
  by_cases main : action.isMain = true
  · refine ⟨(a.process self).receiving, ?_, ?_⟩
    · rw [mainStep_receiving (mainStep_of_act main acts)]
      exact carried.hears self
    · rw [carried.process self, act_receiving main, acts]
      rfl
  · cases action with
    | receive | updateTimestamp => cases other
    | dispatch =>
      obtain ⟨packet, received, listens⟩ := act_dispatch acts
      obtain ⟨idle, received'⟩ := carried.listening received
      refine ⟨.listening, ?_, ?_⟩
      · rw [idle, listens]
        exact .listening _
      · have same : a.process self = s.own self := by
          rw [carried.process self, received', ← received]
        rw [same, acts, ← listens]
    | _ => exact absurd rfl main

theorem act (carried : Carried carrier s letters a)
    (fits : s.fits communicator serialization (self, .act action) = true)
    (taken : s.step communicator serialization (self, .act action) = some s') :
    ∃ letters' a', letters'.thread = letters.thread ∧
      DistributedMonitor.step kind serialization a (self, action) = some a' ∧
      Carried carrier s' letters' a' := by
  simp only [Wired.step] at taken
  split_ifs at taken with isReceive
  have other : action.isReceive = false := Bool.eq_false_of_not_eq_true isReceive
  obtain ⟨outcome, acts, goes⟩ := Option.bind_eq_some_iff.1 taken
  obtain ⟨network, sends, rfl⟩ := Option.map_eq_some_iff.1 goes
  simp only [Wired.fits, acts, Option.all_some, Bool.and_eq_true, decide_eq_true_eq,
    List.all_eq_true] at fits
  have stamped := act_stamped acts other
  rw [show (s.own self).currentLamportTime = (letters.currentLamportTime self).toNat from
    congrArg (fun clock => (clock self).toNat) carried.refines.clock] at stamped
  obtain ⟨letters', refines, thread, time, others, channel⟩ :=
    sends_letters carrier carried.refines stamped fits.1 fits.2 sends
  obtain ⟨receiving, hears, acts'⟩ := carried.acts other acts
  refine ⟨letters', a.update self ({ outcome.1 with receiving }, outcome.2), thread, ?_, refines, ?_,
    ?_, ?_⟩
  · rw [step_acts other, acts']
    rfl
  · intro p
    rw [thread]
    by_cases mine : p = self
    · subst mine
      simp only [System.update, Function.update_self]
      exact hears
    · simp only [System.update, Function.update_of_ne mine]
      exact carried.hears p
  · intro p
    by_cases mine : p = self
    · subst mine
      rw [System.update_own]
      simp only [Wired.own, Function.update_self, refines.clock, time]
    · rw [System.update_other a mine]
      simp only [Wired.own, Function.update_of_ne mine, refines.clock, others p mine]
      rw [← carried.refines.clock]
      exact carried.process p
  · intro source p
    obtain ⟨more, appended, means⟩ := channel source p
    rw [thread, appended, List.map_append, ← List.append_assoc]
    have both := List.rel_append (carried.channel source p) means
    simp only [System.update]
    split_ifs at both ⊢
    · exact both
    · simpa only [List.append_nil] using both

theorem turn (carried : Carried carrier s letters a) {letters' : PacketNetwork n}
    {thread : PacketThread n} (refines : Wire.Refines carrier.format carrier.shown network' letters')
    (clocks : letters'.currentLamportTime = letters.currentLamportTime)
    (threads : letters'.thread = Function.update letters.thread self thread)
    (hears : Hears kind thread (s.process self).receiving (a.process self).receiving)
    (others : ∀ source p, p ≠ self → letters'.channel source p = letters.channel source p)
    (kept : ∀ source, inHand source thread ++ (letters'.channel source self).map Prod.snd =
      inHand source (letters.thread self) ++ (letters.channel source self).map Prod.snd) :
    Carried carrier { s with network := network' } letters' a := by
  have same : network'.currentLamportTime = s.network.currentLamportTime := by
    rw [refines.clock, clocks, carried.refines.clock]
  refine ⟨refines, fun p => ?_, fun p => ?_, fun source p => ?_⟩
  · rw [threads]
    by_cases mine : p = self
    · subst mine
      rw [Function.update_self]
      exact hears
    · rw [Function.update_of_ne mine]
      exact carried.hears p
  · simp only [Wired.own, same]
    exact carried.process p
  · rw [threads]
    by_cases mine : p = self
    · subst mine
      rw [Function.update_self, kept]
      exact carried.channel source p
    · rw [Function.update_of_ne mine, others source p mine]
      exact carried.channel source p

theorem letters_step (carried : Carried carrier s letters a) {e : Wire.Event n}
    (may : Wire.within Wire.packedLimit e = true)
    (taken : communicator.step s.network e = some network') : ∃ letters',
      Wire.letterStep letters e = some letters' ∧
      Wire.Refines carrier.format carrier.shown network' letters' := by
  have matched := carrier.step e carried.refines may
  rw [taken] at matched
  cases stepped : Wire.letterStep letters e with
  | none =>
    rw [stepped] at matched
    cases matched
  | some letters' =>
    rw [stepped] at matched
    cases matched with
    | some refines => exact ⟨letters', rfl, refines⟩

theorem accept (carried : Carried carrier s letters a)
    (taken : s.step communicator serialization (self, .accept source) = some s') : ∃ letters',
      Wire.letterStep letters (self, .accept none source) = some letters' ∧
      Carried carrier s' letters' a := by
  simp only [Wired.step] at taken
  split_ifs at taken with idle
  obtain ⟨network, taken', rfl⟩ := Option.map_eq_some_iff.1 taken
  obtain ⟨letters', stepped, refines⟩ := carried.letters_step rfl taken'
  refine ⟨letters', stepped, ?_⟩
  have hears := carried.hears self
  cases here : letters.thread self with
  | listening =>
    rw [here, idle] at hears
    simp only [Wire.letterStep, here] at stepped
    obtain ⟨⟨letter, rest⟩, found, rfl⟩ := Option.map_eq_some_iff.1 stepped
    obtain ⟨tag, channel⟩ := firstTagged_any found
    refine carried.turn refines rfl rfl ?_ ?_ ?_
    · generalize (a.process self).receiving = receiving at hears
      cases hears
      rw [idle]
      exact .accepted
    · intro source' p other
      simp only [Wire.Network.goto, Wire.Network.leave, other, and_false, if_false]
    · intro source'
      rw [here]
      by_cases same : source' = source
      · subst same
        simp [Wire.Network.goto, Wire.Network.leave, inHand, channel]
      · simp [Wire.Network.goto, Wire.Network.leave, inHand, same, Ne.symm same]
  | accepted | read | updated =>
    simp only [Wire.letterStep, here] at stepped
    cases stepped

theorem read (carried : Carried carrier s letters a)
    (taken : s.step communicator serialization (self, .read) = some s') : ∃ letters',
      Wire.letterStep letters (self, .read) = some letters' ∧ Carried carrier s' letters' a := by
  obtain ⟨network, taken', rfl⟩ := Option.map_eq_some_iff.1 taken
  obtain ⟨letters', stepped, refines⟩ := carried.letters_step rfl taken'
  refine ⟨letters', stepped, ?_⟩
  have hears := carried.hears self
  cases here : letters.thread self with
  | accepted tag source letter =>
    rw [here] at hears
    simp only [Wire.letterStep, here, Option.some.injEq] at stepped
    subst stepped
    refine carried.turn refines rfl rfl ?_ (fun _ _ _ => rfl) fun source => by rw [here]; rfl
    generalize (a.process self).receiving = receiving at hears ⊢
    generalize (s.process self).receiving = receiving' at hears ⊢
    cases hears
    exact .read
  | listening | read | updated =>
    simp only [Wire.letterStep, here] at stepped
    cases stepped

theorem update (carried : Carried carrier s letters a)
    (fits : s.fits communicator serialization (self, .update) = true)
    (taken : s.step communicator serialization (self, .update) = some s') :
    ∃ letters' a' source letter, letters.thread self = .read source letter ∧
      Wire.letterStep letters (self, .update) = some letters' ∧
      DistributedMonitor.step kind serialization a (self, .receive source) = some a' ∧
      Carried carrier s' letters' a' := by
  obtain ⟨network, taken', rfl⟩ := Option.map_eq_some_iff.1 taken
  obtain ⟨letters', stepped, refines⟩ := carried.letters_step rfl taken'
  simp only [Wired.fits, taken', Option.all_some, decide_eq_true_eq] at fits
  have hears := carried.hears self
  cases here : letters.thread self with
  | read source letter =>
    rw [here] at hears
    have goes := stepped
    simp only [Wire.letterStep, here, Option.some.injEq] at stepped
    subst stepped
    have waiting := carried.channel source self
    simp only [here, inHand, if_true, List.singleton_append] at waiting
    generalize queue : a.channel source self = raws at waiting
    cases waiting with
    | @cons _ raw _ rest means others =>
      have idle : (s.process self).receiving = .listening ∧ (a.process self).receiving = .listening := by
        generalize (a.process self).receiving = receiving at hears ⊢
        generalize (s.process self).receiving = receiving' at hears ⊢
        cases hears
        exact ⟨rfl, rfl⟩
      have clock : (network.currentLamportTime self).toNat =
          max raw.lamportTime (a.process self).currentLamportTime + 1 := by
        rw [carried.process self]
        simp only [Wired.own, ← means.lamportTime, refines.clock, carried.refines.clock,
          Wire.Network.goto, Wire.Network.updateClock, Function.update_self] at fits ⊢
        exact tick_toNat fits
      refine ⟨_, _, source, letter, rfl, goes, receive_head idle.2 queue, refines, fun p => ?_,
        fun p => ?_, fun source' p => ?_⟩
      · by_cases mine : p = self
        · subst mine
          simp only [Wire.Network.goto_self, Function.update_self, idle.1]
          cases kind <;> exact .updated means
        · simp only [Wire.Network.goto_thread, if_neg mine, Function.update_of_ne mine]
          exact carried.hears p
      · by_cases mine : p = self
        · subst mine
          simp only [Function.update_self, Wired.own, clock]
          rw [carried.process p]
          rfl
        · simp only [Function.update_of_ne mine, Wired.own, refines.clock, Wire.Network.goto,
            Wire.Network.updateClock]
          rw [← carried.refines.clock]
          exact carried.process p
      · have before := carried.channel source' p
        by_cases mine : p = self
        · subst mine
          rw [Wire.Network.goto_self]
          by_cases same : source' = source
          · subst same
            simp only [and_self, if_true]
            exact others
          · simp only [same, false_and, if_false]
            simp only [here, inHand, if_neg (Ne.symm same)] at before
            exact before
        · simp only [Wire.Network.goto_thread, mine, and_false, if_false]
          exact before
  | listening | accepted | updated =>
    simp only [Wire.letterStep, here] at stepped
    cases stepped

theorem hand (carried : Carried carrier s letters a) {letter : PacketLetter} {packet : Packet n}
    {a' : System n σ} (here : letters.thread self = .updated source letter)
    (refines : Wire.Refines carrier.format carrier.shown network' (letters.goto self .listening))
    (received : a'.process self = { a.process self with receiving := .received packet })
    (others : ∀ p, p ≠ self → a'.process p = a.process p) (channels : a'.channel = a.channel) :
    Carried carrier ⟨Function.update s.process self
      { s.process self with receiving := .received packet }, network'⟩
      (letters.goto self .listening) a' := by
  have clocks : network'.currentLamportTime = s.network.currentLamportTime :=
    refines.clock.trans carried.refines.clock.symm
  refine ⟨refines, fun p => ?_, fun p => ?_, fun source' p => ?_⟩
  · by_cases mine : p = self
    · subst mine
      simp only [Wire.Network.goto_self, Function.update_self, received]
      exact .listening _
    · simp only [Wire.Network.goto_thread, if_neg mine, Function.update_of_ne mine, others p mine]
      exact carried.hears p
  · by_cases mine : p = self
    · subst mine
      simp only [Wired.own, Function.update_self, received, clocks]
      rw [carried.process p]
      rfl
    · simp only [Wired.own, Function.update_of_ne mine, others p mine, clocks]
      exact carried.process p
  · have before := carried.channel source' p
    rw [channels]
    by_cases mine : p = self
    · subst mine
      rw [Wire.Network.goto_self]
      rwa [here] at before
    · rw [Wire.Network.goto_thread, if_neg mine]
      exact before

theorem finish (carried : Carried carrier s letters a)
    (taken : s.step communicator serialization (self, .finish) = some s') :
    ∃ letters' a', Wire.letterStep letters (self, .finish) = some letters' ∧
      (kind = .simple ∧ a' = a ∨ kind = .optimized ∧
        DistributedMonitor.step kind serialization a (self, .updateTimestamp) = some a') ∧
      Carried carrier s' letters' a' := by
  obtain ⟨packet, returned, goes⟩ := Option.bind_eq_some_iff.1 taken
  obtain ⟨network, taken', rfl⟩ := Option.map_eq_some_iff.1 goes
  obtain ⟨letters', stepped, refines⟩ := carried.letters_step rfl taken'
  have hears := carried.hears self
  cases here : letters.thread self with
  | updated source letter =>
    have ends := stepped
    simp only [Wire.letterStep, here, Option.some.injEq] at stepped
    subst stepped
    rw [carrier.returns carried.refines here, Option.bind_some] at returned
    rw [here] at hears
    have handed : ∃ raw, Means letter raw ∧
        (a.process self).receiving = kind.received (toPacket raw source) := by
      generalize (a.process self).receiving = receiving at hears ⊢
      generalize (s.process self).receiving = receiving' at hears
      cases hears with
      | updated means => exact ⟨_, means, rfl⟩
    obtain ⟨raw, means, received⟩ := handed
    cases kind with
    | simple =>
      have same : packet = toPacket raw source :=
        Option.some.inj (returned.symm.trans (means.decoded source))
      have kept : ReceivingThread.received packet = (a.process self).receiving := by
        rw [same, received]
        rfl
      exact ⟨_, a, ends, .inl ⟨rfl, rfl⟩, carried.hand here refines (by rw [kept]) (fun _ _ => rfl) rfl⟩
    | optimized =>
      have same : packet = { toPacket raw source with
          lamportTime := (a.process self).currentLamportTime } := by
        rw [carried.process self]
        simp only [Wired.own, carried.refines.clock]
        exact Option.some.inj (returned.symm.trans (means.restamped source _))
      have silent : (a.update self
          ({ a.process self with receiving := .received packet }, [])).channel = a.channel := by
        funext source' p
        simp [System.update, addressed]
      refine ⟨_, a.update self ({ a.process self with receiving := .received packet }, []), ends,
        .inr ⟨rfl, ?_⟩, carried.hand here refines (a.update_own ..)
          (fun p other => a.update_other other ..) silent⟩
      simp only [DistributedMonitor.step, Process.act, Process.updateTimestamp, received,
        Communicator.received, same, Option.map_some]
  | listening | accepted | read =>
    simp only [Wire.letterStep, here] at stepped
    cases stepped

theorem enabled (carried : Carried carrier s letters a) (e : Wire.Event n)
    (may : Wire.within Wire.packedLimit e = true) (goes : (Wire.letterStep letters e).isSome = true) :
    ∃ network', communicator.step s.network e = some network' := by
  rw [← Wire.isSome_of_rel (carrier.step e carried.refines may)] at goes
  exact Option.isSome_iff_exists.1 goes

theorem finishes (carried : Carried carrier s letters a) {letter : PacketLetter}
    (here : letters.thread self = .updated source letter) : ∃ packet,
      (communicator.returned s.network (self, .finish)).bind Wire.Packet.decoded = some packet := by
  have hears := carried.hears self
  rw [here] at hears
  have returns := carrier.returns carried.refines here
  generalize (a.process self).receiving = receiving at hears
  generalize (s.process self).receiving = receiving' at hears
  cases hears with
  | updated means =>
    rw [returns, Option.bind_some]
    cases kind with
    | simple => exact ⟨_, means.decoded source⟩
    | optimized => exact ⟨_, means.restamped source _⟩

theorem turns (carried : Carried carrier s letters a) (serialization : Serialization σ)
    {action : WiredAction n σ} (next : receiveNext (letters.thread self) = some action) :
    (s.step communicator serialization (self, action)).isSome = true := by
  cases here : letters.thread self with
  | listening =>
    rw [here] at next
    cases next
  | accepted tag source letter =>
    obtain ⟨network, taken⟩ := carried.enabled (self, .read) rfl
      (by simp only [Wire.letterStep, here, Option.isSome_some])
    rw [here] at next
    cases next
    simp only [Wired.step, taken, Option.map_some, Option.isSome_some]
  | read source letter =>
    obtain ⟨network, taken⟩ := carried.enabled (self, .update) rfl
      (by simp only [Wire.letterStep, here, Option.isSome_some])
    rw [here] at next
    cases next
    simp only [Wired.step, taken, Option.map_some, Option.isSome_some]
  | updated source letter =>
    obtain ⟨network, taken⟩ := carried.enabled (self, .finish) rfl
      (by simp only [Wire.letterStep, here, Option.isSome_some])
    obtain ⟨packet, returned⟩ := carried.finishes here
    rw [here] at next
    cases next
    simp only [Wired.step, returned, taken, Option.bind_some, Option.map_some, Option.isSome_some]

theorem accepts (carried : Carried carrier s letters a) (serialization : Serialization σ)
    (here : letters.thread self = .listening) (idle : (s.process self).receiving = .listening)
    (waiting : letters.channel source self ≠ []) :
    (s.step communicator serialization (self, .accept source)).isSome = true := by
  cases queue : letters.channel source self with
  | nil => exact absurd queue waiting
  | cons first rest =>
    obtain ⟨network, taken⟩ := carried.enabled (self, .accept none source) rfl
      (by simp only [Wire.letterStep, here, queue, Wire.firstTagged, Option.all_none, if_true,
        Option.map_some, Option.isSome_some])
    simp only [Wired.step, idle, if_true, taken, Option.map_some, Option.isSome_some]

theorem begins (carried : Carried carrier s letters a) (serialization : Serialization σ)
    (here : letters.thread self = .listening) (idle : (s.process self).receiving = .listening)
    (waiting : s.network.channel source self ≠ []) :
    (s.step communicator serialization (self, .accept source)).isSome = true := by
  refine carried.accepts serialization here idle fun nothing => ?_
  have shows : Wire.Shows carrier.format none (letters.channel source self)
      (s.network.channel source self) := carried.refines.channel_listening here
  rw [nothing] at shows
  generalize s.network.channel source self = messages at shows waiting
  cases shows
  exact waiting rfl

end Carried

def WiredAction.act? : WiredAction n σ → Option (Action n σ)
  | .act action => some action
  | _ => none

def wiredActs (_ : Wired n σ Content Thread) (e : WiredEvent n σ) : Option (Event n σ) :=
  e.2.act?.map (e.1, ·)

theorem wiredActs_none {s : Wired n σ Content Thread} {e : WiredEvent n σ} (silent : e.2.act? = none) :
    wiredActs s e = none := by
  rw [wiredActs, silent]
  rfl

def systemActs (_ : System n σ) (e : Event n σ) : Option (Event n σ) :=
  if e.2.isReceive then none else some e

inductive Answers (kind : Communicator) (serialization : Serialization σ) (a : System n σ)
    (e : WiredEvent n σ) : System n σ → Prop where
  | acts {action : Action n σ} {a' : System n σ} (same : e.2 = .act action)
      (other : action.isReceive = false)
      (taken : step kind serialization a (e.1, action) = some a') : Answers kind serialization a e a'
  | receives {action : Action n σ} {a' : System n σ} (same : e.2.act? = none)
      (isReceive : action.isReceive = true)
      (taken : step kind serialization a (e.1, action) = some a') : Answers kind serialization a e a'
  | stays (same : e.2.act? = none) : Answers kind serialization a e a

theorem Carried.step (carried : Carried carrier s letters a) {e : WiredEvent n σ}
    (fits : s.fits communicator serialization e = true)
    (taken : s.step communicator serialization e = some s') :
    ∃ letters' a', Answers kind serialization a e a' ∧ Carried carrier s' letters' a' := by
  obtain ⟨self, action⟩ := e
  cases action with
  | act action =>
    obtain ⟨letters', a', -, stepped, carried'⟩ := carried.act fits taken
    have other : action.isReceive = false := by
      simp only [Wired.step] at taken
      split_ifs at taken with isReceive
      exact Bool.eq_false_of_not_eq_true isReceive
    exact ⟨letters', a', .acts rfl other stepped, carried'⟩
  | accept source =>
    obtain ⟨letters', -, carried'⟩ := carried.accept taken
    exact ⟨letters', a, .stays rfl, carried'⟩
  | read =>
    obtain ⟨letters', -, carried'⟩ := carried.read taken
    exact ⟨letters', a, .stays rfl, carried'⟩
  | update =>
    obtain ⟨letters', a', source, letter, -, -, received, carried'⟩ := carried.update fits taken
    exact ⟨letters', a', .receives rfl rfl received, carried'⟩
  | finish =>
    obtain ⟨letters', a', -, ⟨-, rfl⟩ | ⟨-, updated⟩, carried'⟩ := carried.finish taken
    · exact ⟨letters', a', .stays rfl, carried'⟩
    · exact ⟨letters', a', .receives rfl rfl updated, carried'⟩

theorem carried_start (carrier : Carrier kind communicator) (setup : Setup n σ) :
    Carried carrier (setup.wired communicator) ⟨fun _ => 0, fun _ => .listening, fun _ _ => []⟩
      setup.system where
  refines := carrier.starts
  hears _ := .listening _
  process p := by
    have zero : communicator.start.currentLamportTime p = 0 := congrFun carrier.starts.clock p
    simp only [Wired.own, Setup.wired, zero]
    rfl
  channel _ _ := .nil

def mirrored (carrier : Carrier kind communicator)
    (contract : Permission (Wired n σ Content Thread) (WiredEvent n σ)) :
    Permission (System n σ) (Event n σ) :=
  fun _ a e => e.2.isReceive = true ∨
    ∃ trace s letters, Carried carrier s letters a ∧ contract trace s (e.1, .act e.2)

variable {contract : Permission (Wired n σ Content Thread) (WiredEvent n σ)}
  {trace : Trace (Wired n σ Content Thread) (WiredEvent n σ)}

theorem carried_run (carrier : Carrier kind communicator)
    (fits : ∀ trace s e, contract trace s e → s.fits communicator serialization e = true)
    (run : WiredRun communicator serialization setup contract trace s) : ∃ trace' letters a,
      Run kind serialization setup (mirrored carrier contract) trace' a ∧
      Carried carrier s letters a ∧ recorded systemActs trace' = recorded wiredActs trace := by
  apply run.history_invariant (I := fun trace s => ∃ trace' letters a,
    Run kind serialization setup (mirrored carrier contract) trace' a ∧
      Carried carrier s letters a ∧ recorded systemActs trace' = recorded wiredActs trace)
  · rintro _ rfl
    exact ⟨[], _, _, .start rfl, carried_start carrier setup, rfl⟩
  · intro trace s e s' run ⟨trace', letters, a, run', carried, same⟩ may taken
    obtain ⟨letters', a', answers, carried'⟩ := carried.step (fits _ _ _ may) taken
    obtain ⟨self, action⟩ := e
    cases answers with
    | @acts action' _ act other stepped =>
      cases act
      have shows : systemActs a (self, action') = some (self, action') := by
        simp only [systemActs, other]
        rfl
      have shows' : wiredActs s (self, .act action') = some (self, action') := rfl
      refine ⟨_, letters', a', .next run' (.inr ⟨_, _, _, carried, may⟩) stepped, carried', ?_⟩
      rw [recorded_some shows, recorded_some shows', same]
    | @receives action' _ silent isReceive stepped =>
      have hidden : systemActs a (self, action') = none := if_pos isReceive
      refine ⟨_, letters', a', .next run' (.inl isReceive) stepped, carried', ?_⟩
      rw [recorded_none hidden, recorded_none (wiredActs_none silent), same]
    | stays silent =>
      refine ⟨trace', letters', a, run', carried', ?_⟩
      rw [recorded_none (wiredActs_none silent), same]

abbrev Communicator.MpiContent : Communicator → Type
  | .simple => Wire.SimpleContent
  | .optimized => ByteString

abbrev Communicator.MpiThread (n : ℕ) : Communicator → Type
  | .simple => Wire.SimpleThread n
  | .optimized => Wire.OptimizedThread n

def Communicator.mpi (n : ℕ) : (kind : Communicator) → ICommunicator n kind.MpiContent (kind.MpiThread n)
  | .simple => mpiSimpleCommunicator n
  | .optimized => mpiOptimizedCommunicator n

def Communicator.carries (n : ℕ) : (kind : Communicator) → Carrier kind (kind.mpi n)
  | .simple => simpleCarrier n
  | .optimized => optimizedCarrier n

/-- The step that comes next in a `receive` of either communicator. -/
def Communicator.receiveNext : (kind : Communicator) → kind.MpiThread n → Option (WiredAction n σ)
  | .simple => fun
    | .listening => none
    | .accepted .. => some .read
    | .read .. => some .update
    | .updated .. => some .finish
  | .optimized => fun
    | .listening => none
    | .accepted .. => some .read
    | .read .. => some .update
    | .updated .. => some .finish

theorem Communicator.receiveNext_shown (kind : Communicator) (thread : PacketThread n) :
    (kind.receiveNext ((kind.carries n).shown thread) : Option (WiredAction n σ)) =
      DistributedMonitor.receiveNext thread := by
  cases kind <;> cases thread <;> rfl

abbrev MpiWired (kind : Communicator) (n : ℕ) (σ : Type) :=
  Wired n σ kind.MpiContent (kind.MpiThread n)

/-- The processes keep to a rule over MPI, no clock wraps and no message is too long. -/
abbrev keepsTo (communicator : ICommunicator n Content Thread) (serialization : Serialization σ)
    (rule : Process n σ → Action n σ → Bool) :
    Permission (Wired n σ Content Thread) (WiredEvent n σ) :=
  fun _ s e => (s.fits communicator serialization e && e.2.act?.all (rule (s.own e.1))) = true

section
variable {rule : Process n σ → Action n σ → Bool}

theorem kept_run (carrier : Carrier kind communicator)
    (unheard : ∀ process receiving action, rule { process with receiving } action = rule process action)
    (run : WiredRun communicator serialization setup (keepsTo communicator serialization rule) trace s) :
    ∃ trace' letters a, Run kind serialization setup
        (fun _ a e => (e.2.isReceive || rule (a.process e.1) e.2) = true) trace' a ∧
      Carried carrier s letters a ∧ recorded systemActs trace' = recorded wiredActs trace := by
  obtain ⟨trace', letters, a, run', carried, same⟩ :=
    carried_run carrier (fun _ _ _ may => (Bool.and_eq_true_iff.1 may).1) run
  refine ⟨trace', letters, a, run'.weaken ?_, carried, same⟩
  rintro _ a' e (isReceive | ⟨_, s', letters', carried', may⟩)
  · exact Bool.or_eq_true_iff.2 (.inl isReceive)
  · refine Bool.or_eq_true_iff.2 (.inr ?_)
    rw [carried'.process e.1, unheard]
    exact (Bool.and_eq_true_iff.1 may).2

/-- Over MPI, with either communicator, the processes do what they do when whole packets travel:
the same steps in the same order lead to the same processes. -/
theorem mpi_refines {s : MpiWired kind n σ} {trace : Trace (MpiWired kind n σ) (WiredEvent n σ)}
    (unheard : ∀ process receiving action, rule { process with receiving } action = rule process action)
    (run : WiredRun (kind.mpi n) serialization setup (keepsTo (kind.mpi n) serialization rule)
      trace s) : ∃ trace' a, Run kind serialization setup
        (fun _ a e => (e.2.isReceive || rule (a.process e.1) e.2) = true) trace' a ∧
      recorded systemActs trace' = recorded wiredActs trace ∧
      ∀ p, a.process p = { s.own p with receiving := (a.process p).receiving } := by
  obtain ⟨trace', letters, a, run', carried, same⟩ := kept_run (kind.carries n) unheard run
  exact ⟨trace', a, run', same, carried.process⟩

end

def locksOnce (process : Process n σ) : Action n σ → Bool
  | .lock mutexName => !process.owned mutexName
  | _ => true

theorem locksOnce_unheard (process : Process n σ) (receiving : ReceivingThread n)
    (action : Action n σ) : locksOnce { process with receiving } action = locksOnce process action := by
  cases action <;> rfl

theorem acquiresOnce_of_locksOnce {e : Event n σ}
    (may : (e.2.isReceive || locksOnce (a.process e.1) e.2) = true) : acquiresOnce a e = true := by
  obtain ⟨self, action⟩ := e
  cases action with
  | lock => exact may
  | _ => rfl

def WiredAction.deliver (source recipient : ProcessId n) : List (WiredEvent n σ) :=
  [(recipient, .accept source), (recipient, .read), (recipient, .update), (recipient, .finish),
    (recipient, .act .dispatch)]

def WiredAction.enter (p q : ProcessId n) : List (WiredEvent n σ) :=
  [[(p, .act (.lock gate)), (p, .act .queue)], deliver p q, deliver q p, [(p, .act .acquired)]].flatten

theorem mpi_refines_two : ∃ trace s, WiredRun (Communicator.optimized.mpi 2) unary (plain 2)
      (keepsTo (Communicator.optimized.mpi 2) unary locksOnce) trace s ∧
    ∃ trace' a, Run .optimized unary (plain 2)
        (fun _ a e => (e.2.isReceive || locksOnce (a.process e.1) e.2) = true) trace' a ∧
      (a.process 0).holds gate = true := by
  obtain ⟨trace, s, run, holds⟩ := exists_execution
    (Wired.step (Communicator.optimized.mpi 2) unary) ((plain 2).wired (Communicator.optimized.mpi 2))
    (keepsTo (Communicator.optimized.mpi 2) unary locksOnce) (WiredAction.enter 0 1)
    (fun _ s => (s.process 0).holds gate) (by decide +kernel)
  obtain ⟨trace', a, run', -, same⟩ := mpi_refines locksOnce_unheard run
  refine ⟨trace, s, run, trace', a, run', ?_⟩
  rw [same 0]
  exact holds

/-- A mutex has one holder at a time over MPI, byte by byte, with either communicator. -/
theorem mpi_exclusion {s : MpiWired kind n σ} {trace : Trace (MpiWired kind n σ) (WiredEvent n σ)}
    (run : WiredRun (kind.mpi n) serialization setup (keepsTo (kind.mpi n) serialization locksOnce)
      trace s) {p q : ProcessId n} {mutexName : MutexName}
    (first : (s.process p).holds mutexName = true) (second : (s.process q).holds mutexName = true) :
    p = q := by
  obtain ⟨trace', letters, a, run', carried, -⟩ := kept_run (kind.carries n) locksOnce_unheard run
  have held : ∀ p, (s.process p).holds mutexName = true → (a.process p).holds mutexName = true := by
    intro p holds
    rw [carried.process p]
    exact holds
  exact holder_unique (fun _ _ _ may => acquiresOnce_of_locksOnce may) run' (held p first) (held q second)

theorem mpi_exclusion_two : ∃ trace s, WiredRun (Communicator.simple.mpi 2) unary (plain 2)
      (keepsTo (Communicator.simple.mpi 2) unary locksOnce) trace s ∧
    (s.process 0).holds gate = true ∧ ∀ q, (s.process q).holds gate = true → 0 = q := by
  obtain ⟨trace, s, run, holds⟩ := exists_execution
    (Wired.step (Communicator.simple.mpi 2) unary) ((plain 2).wired (Communicator.simple.mpi 2))
    (keepsTo (Communicator.simple.mpi 2) unary locksOnce) (WiredAction.enter 0 1)
    (fun _ s => (s.process 0).holds gate) (by decide +kernel)
  exact ⟨trace, s, run, holds, fun q other => mpi_exclusion run holds other⟩

/-- No receive over MPI is stuck: one that has begun takes its next step, up to the last one that
hands over a packet, and where none has begun any message that waits can be taken. A header and its
payload are never confused, and every byte that stands for a message type is one. -/
theorem mpi_receives {s : MpiWired kind n σ} {trace : Trace (MpiWired kind n σ) (WiredEvent n σ)}
    (run : WiredRun (kind.mpi n) serialization setup
      (fun _ s e => s.fits (kind.mpi n) serialization e = true) trace s) (p : ProcessId n) :
    match kind.receiveNext (s.network.thread p) with
    | some action => (s.step (kind.mpi n) serialization (p, action)).isSome = true
    | none => (s.process p).receiving = .listening → ∀ source, s.network.channel source p ≠ [] →
        (s.step (kind.mpi n) serialization (p, .accept source)).isSome = true := by
  obtain ⟨-, letters, a, -, carried, -⟩ := carried_run (kind.carries n) (fun _ _ _ may => may) run
  rw [carried.refines.thread p, kind.receiveNext_shown]
  split
  next action next => exact carried.turns serialization next
  next nothing =>
    exact fun idle source waiting =>
      carried.begins serialization (receiveNext_none nothing) idle waiting

theorem mpi_receives_two : ∃ trace s, WiredRun (Communicator.simple.mpi 2) unary (plain 2)
      (fun _ s e => s.fits (Communicator.simple.mpi 2) unary e = true) trace s ∧
    ∃ action, Communicator.simple.receiveNext (s.network.thread 1) = some action ∧
      (s.step (Communicator.simple.mpi 2) unary (1, action)).isSome = true := by
  obtain ⟨trace, s, run, begun⟩ := exists_execution
    (Wired.step (Communicator.simple.mpi 2) unary) ((plain 2).wired (Communicator.simple.mpi 2))
    (fun _ s e => s.fits (Communicator.simple.mpi 2) unary e = true)
    [(0, .act (.lock gate)), (0, .act .queue), (1, .accept 0)]
    (fun _ s => (Communicator.simple.receiveNext (s.network.thread 1) :
      Option (WiredAction 2 ℕ)).isSome) (by decide +kernel)
  obtain ⟨action, next⟩ := Option.isSome_iff_exists.1 begun
  have goes := mpi_receives run 1
  rw [next] at goes
  exact ⟨trace, s, run, action, next, goes⟩

end DistributedMonitor
