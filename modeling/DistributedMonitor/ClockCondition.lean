import DistributedMonitor.Library.LamportClock
import DistributedMonitor.Network

/-! The stamps of the simple communicator are a logical clock: they grow along every chain of
sends and finished receptions, and with its source a stamp names one send. -/

namespace DistributedMonitor.Wire
open Library

variable {n : ℕ} {contract : Permission (SimpleNetwork n) (Event n)}
  {trace : Trace (SimpleNetwork n) (Event n)} {s s' : SimpleNetwork n} {e : Event n}
  {p q : ProcessId n}

def sentHeader (p : ProcessId n) (s : SimpleNetwork n) (e : Event n) : Option RawPacket :=
  match e.2 with
  | .send messageType message recipients _ =>
      if p ∈ recipients then
        some ⟨s.currentLamportTime e.1 + 1, messageType, UInt32.ofNat message.length⟩
      else none
  | _ => none

/-- The packet whose reception an event finishes, as far as the clock is concerned. -/
def receivedHeader (s : SimpleNetwork n) (e : Event n) : Option (ProcessId n × RawPacket) :=
  match e.2, s.thread e.1 with
  | .update, .read source rawPacket _ => some (source, rawPacket)
  | _, _ => none

def isSend (e : Event n) : Bool :=
  match e.2 with
  | .send .. => true
  | _ => false

def ticks (e : Event n) : Bool :=
  match e.2 with
  | .send .. | .update => true
  | _ => false

/-- The clock that such an event leaves behind. A send stamps its packets with it. -/
def stamp (entry : SimpleNetwork n × Event n) : UInt64 :=
  match receivedHeader entry.1 entry.2 with
  | some (_, rawPacket) => max rawPacket.lamportTime (entry.1.currentLamportTime entry.2.1) + 1
  | none => entry.1.currentLamportTime entry.2.1 + 1

def unwrapped (s : SimpleNetwork n) (e : Event n) : Bool :=
  !ticks e || (match receivedHeader s e with
    | some (_, rawPacket) =>
        max rawPacket.lamportTime.toNat (s.currentLamportTime e.1).toNat + 1 < UInt64.size
    | none => (s.currentLamportTime e.1).toNat + 1 < UInt64.size)

/-- The sends and finished receptions of a run, the oldest first. -/
def clockEvents (trace : Trace (SimpleNetwork n) (Event n)) : List (SimpleNetwork n × Event n) :=
  (trace.filter fun entry => ticks entry.2).reverse

def processOf (entry : SimpleNetwork n × Event n) : ProcessId n := entry.2.1

/-- A packet of the first event is received by the second. -/
def Delivers (sent received : SimpleNetwork n × Event n) : Prop :=
  ∃ rawPacket, sentHeader received.2.1 sent.1 sent.2 = some rawPacket ∧
    receivedHeader received.1 received.2 = some (sent.2.1, rawPacket)

structure ClockCondition (trace : Trace (SimpleNetwork n) (Event n)) (s : SimpleNetwork n) :
    Prop where
  ordered : ∀ (i j : ℕ) first later, (clockEvents trace)[i]? = some first →
    (clockEvents trace)[j]? = some later → isSend first.2 = true → isSend later.2 = true →
    HappensBefore processOf Delivers (clockEvents trace) i j → stamp first < stamp later
  received : ∀ entry ∈ trace, ∀ source rawPacket,
    receivedHeader entry.1 entry.2 = some (source, rawPacket) →
    rawPacket.lamportTime < s.currentLamportTime entry.2.1
  unique : ∀ (i j : ℕ) first later, (clockEvents trace)[i]? = some first →
    (clockEvents trace)[j]? = some later → isSend first.2 = true → isSend later.2 = true →
    stamp first = stamp later → processOf first = processOf later → i = j
  /-- A finished reception is that of a packet sent before. -/
  origin : ∀ (j : ℕ) later source rawPacket, (clockEvents trace)[j]? = some later →
    receivedHeader later.1 later.2 = some (source, rawPacket) →
    ∃ (i : ℕ) (first : _), (clockEvents trace)[i]? = some first ∧ isSend first.2 = true ∧
      processOf first = source ∧ Delivers first later ∧ i < j

theorem stamp_of_header {rawPacket : RawPacket} (sent : sentHeader p s e = some rawPacket) :
    rawPacket.lamportTime = stamp (s, e) := by
  unfold sentHeader at sent
  split at sent
  next messageType message recipients tag sends =>
    split_ifs at sent
    cases sent
    simp only [stamp, receivedHeader, sends]
  next => cases sent

theorem add_one_toNat {time : UInt64} (fits : time.toNat + 1 < UInt64.size) :
    (time + 1).toNat = time.toNat + 1 := by
  rw [UInt64.toNat_add, UInt64.toNat_one]
  exact Nat.mod_eq_of_lt fits

theorem max_toNat (first second : UInt64) :
    (max first second).toNat = max first.toNat second.toNat := by
  change (if first ≤ second then second else first).toNat = _
  rw [max_def]
  simp only [UInt64.le_iff_toNat_le]
  split_ifs <;> rfl

theorem clock_step (taken : simpleStep s e = some s') :
    s'.currentLamportTime = if ticks e then
      Function.update s.currentLamportTime e.1 (stamp (s, e)) else s.currentLamportTime := by
  cases simpleStep_cases taken with
  | send | accept | empty | read | finish => rfl
  | update read =>
    simp only [ticks, stamp, receivedHeader, read, if_true]
    rfl

theorem stamp_toNat (fits : unwrapped s e = true) (sets : ticks e = true) :
    (s.currentLamportTime e.1).toNat < (stamp (s, e)).toNat ∧
    ∀ source rawPacket, receivedHeader s e = some (source, rawPacket) →
      rawPacket.lamportTime.toNat < (stamp (s, e)).toNat := by
  simp only [unwrapped, sets, Bool.not_true, Bool.false_or] at fits
  unfold stamp
  split at fits
  next source rawPacket received =>
    have small := of_decide_eq_true fits
    rw [← max_toNat] at small
    simp only [received, add_one_toNat small]
    constructor
    · rw [max_toNat]
      exact Nat.lt_succ_of_le (le_max_right ..)
    · rintro source' rawPacket' same
      cases same
      rw [max_toNat]
      exact Nat.lt_succ_of_le (le_max_left ..)
  next nothing =>
    simp only [nothing, add_one_toNat (of_decide_eq_true fits)]
    exact ⟨Nat.lt_succ_self _, nofun⟩

theorem clockEvents_tick (sets : ticks e = true) :
    clockEvents ((s, e) :: trace) = clockEvents trace ++ [(s, e)] := by
  simp [clockEvents, sets]

theorem clockEvents_quiet (keeps : ticks e = false) :
    clockEvents ((s, e) :: trace) = clockEvents trace := by
  simp [clockEvents, keeps]

theorem clocked_run (fits : ∀ trace s e, contract trace s e → unwrapped s e = true)
    (run : SimpleRun n contract trace s) :
    Clocked processOf Delivers (fun entry => (stamp entry).toNat) (clockEvents trace) ∧
    ∀ entry ∈ clockEvents trace,
      (stamp entry).toNat ≤ (s.currentLamportTime (processOf entry)).toNat ∧
      ∀ source rawPacket, receivedHeader entry.1 entry.2 = some (source, rawPacket) →
        rawPacket.lamportTime.toNat < (stamp entry).toNat := by
  apply run.history_invariant (I := fun trace s =>
    Clocked processOf Delivers (fun entry => (stamp entry).toNat) (clockEvents trace) ∧
    ∀ entry ∈ clockEvents trace,
      (stamp entry).toNat ≤ (s.currentLamportTime (processOf entry)).toNat ∧
      ∀ source rawPacket, receivedHeader entry.1 entry.2 = some (source, rawPacket) →
        rawPacket.lamportTime.toNat < (stamp entry).toNat)
  · rintro _ rfl
    exact ⟨.nil, nofun⟩
  · intro trace s e s' run ⟨clocked, past⟩ may taken
    rw [clock_step taken]
    cases sets : ticks e with
    | false =>
      rw [clockEvents_quiet sets]
      exact ⟨clocked, past⟩
    | true =>
      obtain ⟨later, received⟩ := stamp_toNat (fits trace s e may) sets
      rw [clockEvents_tick sets]
      refine ⟨clocked.snoc ?_, ?_⟩
      · rintro first member (together | ⟨rawPacket, sent, receives⟩)
        · exact (past first member).1.trans_lt (together ▸ later)
        · change (stamp (first.1, first.2)).toNat < _
          rw [← stamp_of_header sent]
          exact received _ _ receives
      · intro entry member
        rw [if_pos rfl]
        rcases List.mem_append.1 member with old | new
        · refine ⟨?_, (past entry old).2⟩
          by_cases together : processOf entry = e.1
          · rw [together, Function.update_self]
            exact (past entry old).1.trans (together ▸ later.le)
          · rw [Function.update_of_ne together]
            exact (past entry old).1
        · rw [List.mem_singleton.1 new]
          exact ⟨(congrArg UInt64.toNat (Function.update_self e.1 _ _)).ge, received⟩

def SimpleThread.header? : SimpleThread n → Option (ProcessId n × RawPacket)
  | .accepted _ source rawPacket | .read source rawPacket _ | .updated source rawPacket _ =>
      some (source, rawPacket)
  | .listening => none

def Underway (s : SimpleNetwork n) (q p : ProcessId n) (rawPacket : RawPacket) : Prop :=
  (∃ tag, (tag, SimpleContent.header rawPacket) ∈ s.channel q p) ∨
    (s.thread p).header? = some (q, rawPacket)

theorem mem_simpleMessages {messageType : UInt8} {message : ByteString} {tag tag' : MpiTag}
    {lamportTime : UInt64} {rawPacket : RawPacket}
    (member : (tag', SimpleContent.header rawPacket) ∈
      simpleMessages messageType message tag lamportTime) :
    rawPacket = ⟨lamportTime, messageType, UInt32.ofNat message.length⟩ := by
  unfold simpleMessages at member
  rcases List.mem_cons.1 member with same | payload
  · cases same
    rfl
  · split_ifs at payload
    · cases payload
    · cases List.mem_singleton.1 payload

theorem underway_goto {self : ProcessId n} {thread : SimpleThread n} {rawPacket : RawPacket}
    (underway : Underway (s.goto self thread) q p rawPacket) :
    Underway s q p rawPacket ∨ p = self ∧ thread.header? = some (q, rawPacket) := by
  rcases underway with sent | held
  · exact .inl (.inl sent)
  · rw [Network.goto_thread] at held
    split_ifs at held with mine
    · exact .inr ⟨mine, held⟩
    · exact .inl (.inr held)

theorem underway_leave {source self : ProcessId n} {rest : List (MpiTag × SimpleContent)}
    {rawPacket : RawPacket} (kept : ∀ message ∈ rest, message ∈ s.channel source self)
    (underway : Underway (s.leave source self rest) q p rawPacket) : Underway s q p rawPacket := by
  rcases underway with ⟨tag, member⟩ | held
  · refine .inl ⟨tag, ?_⟩
    simp only [Network.leave] at member
    split_ifs at member with here
    · exact here.1 ▸ here.2 ▸ kept _ member
    · exact member
  · exact .inr held

theorem underway_send {self : ProcessId n} {recipients : Finset (ProcessId n)}
    {messageType : UInt8} {message : ByteString} {tag : MpiTag} {rawPacket : RawPacket}
    (underway : Underway (s.send self recipients (simpleMessages messageType message tag)) q p
      rawPacket) : Underway s q p rawPacket ∨ self = q ∧
        sentHeader p s (self, .send messageType message recipients tag) = some rawPacket := by
  rcases underway with ⟨tag', member⟩ | held
  · simp only [Network.send] at member
    split_ifs at member with here
    · rcases List.mem_append.1 member with old | new
      · exact .inl (.inl ⟨tag', old⟩)
      · refine .inr ⟨here.1.symm, ?_⟩
        rw [mem_simpleMessages new]
        exact if_pos here.2
    · exact .inl (.inl ⟨tag', member⟩)
  · exact .inl (.inr held)

theorem underway_step (taken : simpleStep s e = some s') {rawPacket : RawPacket}
    (underway : Underway s' q p rawPacket) :
    Underway s q p rawPacket ∨ e.1 = q ∧ sentHeader p s e = some rawPacket := by
  -- past its first message a receive has the header that it had
  have goes : ∀ {changed : SimpleNetwork n} {self : ProcessId n} {thread : SimpleThread n},
      Underway (changed.goto self thread) q p rawPacket →
      (Underway changed q p rawPacket → Underway s q p rawPacket) →
      (∀ header, thread.header? = some header → (s.thread self).header? = some header) →
      Underway s q p rawPacket := by
    intro changed self thread underway before same
    rcases underway_goto underway with left | ⟨rfl, held⟩
    · exact before left
    · exact .inr (same _ held)
  cases simpleStep_cases taken with
  | send => exact underway_send underway
  | accept listening found =>
    obtain ⟨⟨tag, member⟩, kept⟩ := firstTagged_mem found
    rcases underway_goto underway with left | ⟨rfl, held⟩
    · exact .inl (underway_leave kept left)
    · cases held
      exact .inl (.inl ⟨tag, member⟩)
  | empty accepted nothing =>
    exact .inl (goes underway id fun header held => by rw [accepted]; exact held)
  | read accepted something found fills =>
    exact .inl (goes underway (underway_leave (firstTagged_mem found).2)
      fun header held => by rw [accepted]; exact held)
  | update read =>
    exact .inl (goes underway id fun header held => by rw [read]; exact held)
  | finish updated =>
    exact .inl (goes underway id fun header held => by cases held)

theorem isSend_of_header {rawPacket : RawPacket} (sent : sentHeader p s e = some rawPacket) :
    isSend e = true := by
  unfold sentHeader at sent
  unfold isSend
  split at sent
  · rfl
  · cases sent

theorem ticks_of_isSend (sends : isSend e = true) : ticks e = true := by
  unfold isSend at sends
  unfold ticks
  split at sends
  next acts => rw [acts]
  next => cases sends

theorem underway_run (run : SimpleRun n contract trace s) (q p : ProcessId n) :
    ∀ rawPacket, Underway s q p rawPacket → ∃ first ∈ clockEvents trace, processOf first = q ∧
      sentHeader p first.1 first.2 = some rawPacket := by
  apply run.history_invariant (I := fun trace s => ∀ rawPacket, Underway s q p rawPacket →
    ∃ first ∈ clockEvents trace, processOf first = q ∧
      sentHeader p first.1 first.2 = some rawPacket)
  · rintro _ rfl rawPacket (⟨tag, member⟩ | held)
    · cases member
    · cases held
  · intro trace s e s' run before may taken rawPacket underway
    have older : ∀ first ∈ clockEvents trace, first ∈ clockEvents ((s, e) :: trace) := by
      intro first member
      cases sets : ticks e with
      | false => rwa [clockEvents_quiet sets]
      | true => exact clockEvents_tick sets ▸ List.mem_append_left _ member
    rcases underway_step taken underway with old | ⟨sender, sent⟩
    · obtain ⟨first, member, facts⟩ := before rawPacket old
      exact ⟨first, older first member, facts⟩
    · refine ⟨(s, e), ?_, sender, sent⟩
      rw [clockEvents_tick (ticks_of_isSend (isSend_of_header sent))]
      exact List.mem_append_right _ (List.mem_singleton_self _)

theorem receivedHeader_held {source : ProcessId n} {rawPacket : RawPacket}
    (received : receivedHeader s e = some (source, rawPacket)) :
    (s.thread e.1).header? = some (source, rawPacket) ∧ ticks e = true := by
  unfold receivedHeader at received
  split at received
  next source' rawPacket' message updates here =>
    rw [here]
    exact ⟨received, by rw [ticks, updates]⟩
  next => cases received

theorem origin_run (run : SimpleRun n contract trace s) : ∀ (j : ℕ) later source rawPacket,
    (clockEvents trace)[j]? = some later →
    receivedHeader later.1 later.2 = some (source, rawPacket) →
    ∃ (i : ℕ) (first : _), (clockEvents trace)[i]? = some first ∧ isSend first.2 = true ∧
      processOf first = source ∧ Delivers first later ∧ i < j := by
  apply run.history_invariant (I := fun trace s => ∀ (j : ℕ) later source rawPacket,
    (clockEvents trace)[j]? = some later →
    receivedHeader later.1 later.2 = some (source, rawPacket) →
    ∃ (i : ℕ) (first : _), (clockEvents trace)[i]? = some first ∧ isSend first.2 = true ∧
      processOf first = source ∧ Delivers first later ∧ i < j)
  · rintro _ rfl j later source rawPacket there
    cases there
  · intro trace s e s' run before may taken j later source rawPacket there received
    cases sets : ticks e with
    | false =>
      rw [clockEvents_quiet sets] at there ⊢
      exact before j later source rawPacket there received
    | true =>
      rw [clockEvents_tick sets] at there ⊢
      have known : ∀ (i : ℕ) first, (clockEvents trace)[i]? = some first →
          (clockEvents trace ++ [(s, e)])[i]? = some first ∧ i < (clockEvents trace).length := by
        intro i first here
        obtain ⟨bound, -⟩ := List.getElem?_eq_some_iff.1 here
        exact ⟨(List.getElem?_append_left bound).trans here, bound⟩
      by_cases old : j < (clockEvents trace).length
      · rw [List.getElem?_append_left old] at there
        obtain ⟨i, first, here, facts⟩ := before j later source rawPacket there received
        exact ⟨i, first, (known i first here).1, facts⟩
      · obtain rfl : later = (s, e) := by
          rw [List.getElem?_append_right (Nat.le_of_not_lt old)] at there
          exact List.mem_singleton.1 (List.mem_of_getElem? there)
        obtain ⟨held, -⟩ := receivedHeader_held received
        obtain ⟨first, member, sender, sent⟩ := underway_run run source e.1 rawPacket (.inr held)
        obtain ⟨i, here⟩ := List.getElem?_of_mem member
        obtain ⟨here', bound⟩ := known i first here
        refine ⟨i, first, here', isSend_of_header sent, sender, ⟨rawPacket, sent, ?_⟩, by omega⟩
        exact received.trans (by rw [← sender]; rfl)

/-- The clock condition, in every run in which no clock reaches 2^64. -/
theorem clock_condition (run : SimpleRun n (fun _ s e => unwrapped s e = true) trace s) :
    ClockCondition trace s := by
  obtain ⟨clocked, past⟩ := clocked_run (fun _ _ _ may => may) run
  refine ⟨?_, ?_, ?_, origin_run run⟩
  · intro i j first later here there _ _ before
    exact UInt64.lt_iff_toNat_lt.2 (clocked.lt_of_happensBefore before here there)
  · intro entry member source rawPacket received
    have sets := (receivedHeader_held received).2
    have listed : entry ∈ clockEvents trace :=
      List.mem_reverse.2 (List.mem_filter.2 ⟨member, sets⟩)
    obtain ⟨reached, past⟩ := past entry listed
    exact UInt64.lt_iff_toNat_lt.2 ((past source rawPacket received).trans_le reached)
  · intro i j first later here there _ _ same together
    exact clocked.unique here there together (congrArg UInt64.toNat same)

theorem clock_condition_two : ∃ trace s, SimpleRun 2 (fun _ s e => unwrapped s e = true) trace s ∧
    HappensBefore processOf Delivers (clockEvents trace) 0 2 ∧
    (clockEvents trace).map stamp = [1, 2, 3] ∧ ClockCondition trace s := by
  obtain ⟨trace, s, run, reached⟩ := exists_execution simpleStep (simpleStart 2)
    (fun _ s e => unwrapped s e = true)
    [(0, .send 0 [7] {1} 0), (1, .accept none 0), (1, .read), (1, .update), (1, .finish),
      (1, .send 1 [] {0} 0)]
    (fun trace _ => (clockEvents trace).map stamp = [1, 2, 3] ∧
      (clockEvents trace).map processOf = [0, 1, 1] ∧
      (clockEvents trace).map (fun entry => sentHeader 1 entry.1 entry.2) = [some ⟨1, 0, 1⟩, none, none] ∧
      (clockEvents trace).map (fun entry => receivedHeader entry.1 entry.2) =
        [none, some (0, ⟨1, 0, 1⟩), none])
    (by decide +kernel)
  obtain ⟨stamps, processes, sent, received⟩ := of_decide_eq_true reached
  refine ⟨trace, s, run, ?_, stamps, clock_condition run⟩
  have shape : ∃ a b c, clockEvents trace = [a, b, c] :=
    List.length_eq_three.1 ((List.length_map stamp).symm.trans (congrArg List.length stamps))
  obtain ⟨a, b, c, list⟩ := shape
  rw [list] at processes sent received ⊢
  simp only [List.map_cons, List.map_nil, List.cons.injEq, and_true] at processes sent received
  obtain ⟨first, second, third⟩ := processes
  have delivers : Delivers a b := by
    refine ⟨⟨1, 0, 1⟩, ?_, ?_⟩
    · rw [show b.2.1 = 1 from second]
      exact sent.1
    · rw [show a.2.1 = 0 from first]
      exact received.2.1
  have arrives : Direct processOf Delivers [a, b, c] 0 1 := ⟨by decide, a, b, rfl, rfl, .inr delivers⟩
  have answers : Direct processOf Delivers [a, b, c] 1 2 :=
    ⟨by decide, b, c, rfl, rfl, .inl (second.trans third.symm)⟩
  exact .tail (.single arrives) answers

end DistributedMonitor.Wire
