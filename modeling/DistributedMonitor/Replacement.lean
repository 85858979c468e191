import DistributedMonitor.ClockCondition
import DistributedMonitor.Letters

/-! The optimized communicator in the place of the simple one: both of them run over the same
sends, and their receives match the same packets. -/

namespace DistributedMonitor.Wire
open Library

variable {n : ℕ}

abbrev BothNetworks (n : ℕ) := SimpleNetwork n × OptimizedNetwork n

def bothStep (s : BothNetworks n) (e : Event n) : Option (BothNetworks n) :=
  match simpleStep s.1 e, optimizedStep s.2 e with
  | some simple, some optimized => some (simple, optimized)
  | _, _ => none

abbrev BothRun (n : ℕ) (contract : Permission (BothNetworks n) (Event n)) :
    Trace (BothNetworks n) (Event n) → BothNetworks n → Prop :=
  Execution bothStep (· = (simpleStart n, optimizedStart n)) contract

/-- With the header of the packed format it has to fit the `int` in which MPI counts. -/
abbrev Fits (message : ByteString) : Prop := message.length + 9 < 2 ^ 31

def sendable (e : Event n) : Bool :=
  match e.2 with
  | .send _ message _ _ => decide (Fits message)
  | _ => true

/-- Neither communicator can do what the other cannot, and nobody sees a difference. -/
structure DropIn (trace : Trace (BothNetworks n) (Event n)) (s : BothNetworks n) : Prop where
  together : ∀ e, sendable e = true → (simpleStep s.1 e).isSome = (optimizedStep s.2 e).isSome
  clocks : s.1.currentLamportTime = s.2.currentLamportTime
  packets : ∀ entry ∈ trace,
    simpleReturned entry.1.1 entry.2 = optimizedReturned entry.1.2 entry.2

variable {contract : Permission (BothNetworks n) (Event n)} {trace : Trace (BothNetworks n) (Event n)}
  {s s' : BothNetworks n} {e : Event n}

theorem bothStep_some (taken : bothStep s e = some s') :
    simpleStep s.1 e = some s'.1 ∧ optimizedStep s.2 e = some s'.2 := by
  unfold bothStep at taken
  split at taken
  next simple optimized taken₁ taken₂ =>
    cases taken
    exact ⟨taken₁, taken₂⟩
  next => cases taken

theorem isSome_of_rel {α β : Type} {R : α → β → Prop} {x : Option α} {y : Option β}
    (related : Option.Rel R x y) : x.isSome = y.isSome := by
  cases related <;> rfl

def packedLimit : ℕ := 2 ^ 31 - 9

theorem packedLimit_small : packedLimit ≤ UInt32.size := by
  decide

theorem within_of_sendable (may : sendable e = true) : within packedLimit e = true := by
  obtain ⟨self, action⟩ := e
  cases action with
  | send messageType message recipients tag =>
    have fits : Fits message := of_decide_eq_true may
    apply decide_eq_true
    unfold packedLimit
    omega
  | accept | read | update | finish => rfl

structure Carries (s : BothNetworks n) (a : LetterNetwork n packedLimit) : Prop where
  simple : Refines simpleFormat LetterThread.simple s.1 a
  optimized : Refines optimizedFormat LetterThread.optimized s.2 a

theorem carries_start : Carries (simpleStart n, optimizedStart n)
    ⟨fun _ => 0, fun _ => .listening, fun _ _ => []⟩ :=
  ⟨⟨rfl, fun _ => rfl, fun _ _ => .closed []⟩, ⟨rfl, fun _ => rfl, fun _ _ => .closed []⟩⟩

namespace Carries

variable {a : LetterNetwork n packedLimit}

theorem step (carries : Carries s a) (may : sendable e = true) (taken : bothStep s e = some s') :
    ∃ a', letterStep a e = some a' ∧ Carries s' a' := by
  obtain ⟨simple, optimized⟩ := bothStep_some taken
  have first := simple_step packedLimit_small carries.simple (within_of_sendable may)
  have second := optimized_step carries.optimized (within_of_sendable may)
  rw [simple] at first
  rw [optimized] at second
  cases stepped : letterStep a e with
  | none =>
    rw [stepped] at first
    cases first
  | some a' =>
    rw [stepped] at first second
    cases first with
    | some first =>
      cases second with
      | some second => exact ⟨a', rfl, first, second⟩

theorem together (carries : Carries s a) (may : sendable e = true) :
    (simpleStep s.1 e).isSome = (optimizedStep s.2 e).isSome := by
  rw [isSome_of_rel (simple_step packedLimit_small carries.simple (within_of_sendable may)),
    isSome_of_rel (optimized_step carries.optimized (within_of_sendable may))]

theorem clocks (carries : Carries s a) : s.1.currentLamportTime = s.2.currentLamportTime :=
  carries.simple.clock.trans carries.optimized.clock.symm

theorem returned (carries : Carries s a) (e : Event n) : optimizedReturned s.2 e =
    (simpleReturned s.1 e).map fun packet =>
      { packet with lamportTime := s.1.currentLamportTime e.1 } := by
  obtain ⟨self, action⟩ := e
  have simple := carries.simple.thread self
  have optimized := carries.optimized.thread self
  cases action with
  | finish =>
    cases here : a.thread self <;> rw [here] at simple optimized <;>
      simp only [simpleReturned, optimizedReturned, simple, optimized, LetterThread.simple,
        LetterThread.optimized, carries.clocks] <;> rfl
  | send | accept | read | update => rfl

theorem returned_iff (carries : Carries s a) (e : Event n) :
    simpleReturned s.1 e = optimizedReturned s.2 e ↔ ∀ packet, simpleReturned s.1 e = some packet →
      s.1.currentLamportTime e.1 = packet.lamportTime := by
  rw [carries.returned]
  cases returns : simpleReturned s.1 e with
  | none => exact ⟨nofun, fun _ => rfl⟩
  | some packet =>
    rw [Option.map_some, Option.some.injEq]
    constructor
    · rintro same _ ⟨⟩
      exact (congrArg Packet.lamportTime same).symm
    · intro stamped
      rw [stamped packet rfl]

end Carries

theorem carries_run (run : BothRun n contract trace s)
    (fits : ∀ trace s e, contract trace s e → sendable e = true) : ∃ a, Carries s a := by
  apply run.invariant
  · rintro _ rfl
    exact ⟨_, carries_start⟩
  · rintro trace s e s' _ ⟨a, carries⟩ may taken
    obtain ⟨a', _, carries'⟩ := carries.step (fits trace s e may) taken
    exact ⟨a', carries'⟩

theorem carries_entry (run : BothRun n contract trace s)
    (fits : ∀ trace s e, contract trace s e → sendable e = true)
    {entry : BothNetworks n × Event n} (member : entry ∈ trace) : ∃ a, Carries entry.1 a := by
  obtain ⟨later, earlier, rfl⟩ := List.append_of_mem member
  exact carries_run run.earlier fits

theorem drop_in_iff_stamped (run : BothRun n contract trace s)
    (fits : ∀ trace s e, contract trace s e → sendable e = true) :
    DropIn trace s ↔ ∀ entry ∈ trace, ∀ packet, simpleReturned entry.1.1 entry.2 = some packet →
      entry.1.1.currentLamportTime entry.2.1 = packet.lamportTime := by
  constructor
  · intro dropIn entry member
    obtain ⟨a, carries⟩ := carries_entry run fits member
    exact (carries.returned_iff _).1 (dropIn.packets entry member)
  · intro stamped
    obtain ⟨a, carries⟩ := carries_run run fits
    refine ⟨fun e => carries.together, carries.clocks, fun entry member => ?_⟩
    obtain ⟨a, carries⟩ := carries_entry run fits member
    exact (carries.returned_iff _).2 (stamped entry member)

def Past (s : SimpleNetwork n) : Prop :=
  ∀ p source rawPacket message, s.thread p = .updated source rawPacket message →
    rawPacket.lamportTime.toNat < (s.currentLamportTime p).toNat

section
variable {s s' : SimpleNetwork n} {p : ProcessId n}

theorem updated_step {source : ProcessId n} {rawPacket : RawPacket} {message : ByteString}
    (taken : simpleStep s e = some s') (later : s'.thread p = .updated source rawPacket message) :
    s.thread p = .updated source rawPacket message ∨
      p = e.1 ∧ receivedHeader s e = some (source, rawPacket) := by
  have goes : ∀ {changed : SimpleNetwork n} {self : ProcessId n} {thread : SimpleThread n},
      (changed.goto self thread).thread p = .updated source rawPacket message →
      changed.thread = s.thread →
      s.thread p = .updated source rawPacket message ∨
        p = self ∧ thread = .updated source rawPacket message := by
    intro changed self thread later same
    rw [Network.goto_thread] at later
    split_ifs at later with mine
    · exact .inr ⟨mine, later⟩
    · exact .inl (same ▸ later)
  cases simpleStep_cases taken with
  | send => exact .inl later
  | accept | empty | read | finish =>
    rcases goes later rfl with before | ⟨_, other⟩
    · exact .inl before
    · cases other
  | update read =>
    rcases goes later rfl with before | ⟨mine, same⟩
    · exact .inl before
    · cases same
      exact .inr ⟨mine, by simp only [receivedHeader, read]⟩

theorem past_step (past : Past s) (fits : unwrapped s e = true) (taken : simpleStep s e = some s') :
    Past s' := by
  intro p source rawPacket message later
  rw [clock_step taken]
  cases sets : ticks e with
  | false =>
    rcases updated_step taken later with before | ⟨rfl, received⟩
    · exact past p source rawPacket message before
    · rw [(receivedHeader_held received).2] at sets
      cases sets
  | true =>
    obtain ⟨grows, passes⟩ := stamp_toNat fits sets
    rw [if_pos rfl]
    rcases updated_step taken later with before | ⟨rfl, received⟩
    · by_cases mine : p = e.1
      · subst mine
        rw [Function.update_self]
        exact (past e.1 source rawPacket message before).trans grows
      · rw [Function.update_of_ne mine]
        exact past p source rawPacket message before
    · rw [Function.update_self]
      exact passes source rawPacket received

end

theorem past_run (run : BothRun n contract trace s)
    (fits : ∀ entry ∈ trace, unwrapped entry.1.1 entry.2 = true) : Past s.1 := by
  induction run with
  | start initial =>
    cases initial
    rintro p source rawPacket message ⟨⟩
  | next run may taken ih =>
    obtain ⟨fits, earlier⟩ := List.forall_mem_cons.1 fits
    exact past_step (ih earlier) fits (bothStep_some taken).1

theorem Past.returned {s : SimpleNetwork n} (past : Past s) {packet : Packet n}
    (returns : simpleReturned s e = some packet) :
    s.currentLamportTime e.1 ≠ packet.lamportTime := by
  unfold simpleReturned at returns
  split at returns
  next source rawPacket message _ here =>
    cases returns
    intro same
    exact (past e.1 source rawPacket message here).ne' (congrArg UInt64.toNat same)
  next => cases returns

def returns (e : Event n) : Bool :=
  match e.2 with
  | .finish => true
  | _ => false

theorem returned_of_taken {s s' : SimpleNetwork n} (taken : simpleStep s e = some s') :
    returns e = (simpleReturned s e).isSome := by
  obtain ⟨self, action⟩ := e
  cases action with
  | finish => cases here : s.thread self <;> simp_all [simpleStep, simpleReturned, returns]
  | send | accept | read | update => rfl

/-- The optimized communicator can stand in for the simple one exactly as long as no receive
leaves its packet's stamp on the clock; and if no clock wraps, as long as none returns. -/
theorem drop_in_iff (run : BothRun n (fun _ _ e => sendable e = true) trace s) :
    (DropIn trace s ↔ ∀ entry ∈ trace, ∀ packet, simpleReturned entry.1.1 entry.2 = some packet →
      entry.1.1.currentLamportTime entry.2.1 = packet.lamportTime) ∧
    ((∀ entry ∈ trace, unwrapped entry.1.1 entry.2 = true) →
      (DropIn trace s ↔ ∀ entry ∈ trace, returns entry.2 = false)) := by
  have stamped := drop_in_iff_stamped run fun _ _ _ may => may
  refine ⟨stamped, fun fits => stamped.trans ?_⟩
  constructor
  · intro stamped entry member
    obtain ⟨later, earlier, rfl⟩ := List.append_of_mem member
    obtain ⟨_, taken⟩ := run.taken
    have past : Past entry.1.1 := past_run run.earlier fun other listed =>
      fits other (List.mem_append_right _ (List.mem_cons_of_mem _ listed))
    rw [returned_of_taken (bothStep_some taken).1, Option.isSome_eq_false_iff, Option.isNone_iff_eq_none,
      Option.eq_none_iff_forall_ne_some]
    exact fun packet returned => past.returned returned (stamped entry member packet returned)
  · intro silent entry member packet returned
    obtain ⟨later, earlier, rfl⟩ := List.append_of_mem member
    obtain ⟨_, taken⟩ := run.taken
    have quiet := silent entry member
    rw [returned_of_taken (bothStep_some taken).1, returned] at quiet
    cases quiet

theorem drop_in_two : ∃ trace s, BothRun 2 (fun _ _ e => sendable e = true) trace s ∧
    simpleReturned s.1 (1, .finish) = some ⟨1, 0, 3, [7]⟩ ∧ DropIn trace s := by
  obtain ⟨trace, s, run, reached⟩ := exists_execution bothStep (simpleStart 2, optimizedStart 2)
    (fun _ _ e => sendable e = true)
    [(0, .send 3 [7] {1} 0), (1, .accept none 0), (1, .read), (1, .update)]
    (fun trace s => simpleReturned s.1 (1, .finish) = some ⟨1, 0, 3, [7]⟩ ∧
      ∀ entry ∈ trace, simpleReturned entry.1.1 entry.2 = none)
    (by decide +kernel)
  obtain ⟨returning, nothing⟩ := of_decide_eq_true reached
  refine ⟨trace, s, run, returning, (drop_in_iff run).1.2 fun entry member packet returns => ?_⟩
  cases (nothing entry member).symm.trans returns

/-- Of the same packet the simple communicator returns the stamp 1, the optimized one 2. -/
theorem returned_two : ∃ trace s, BothRun 2 (fun _ _ e => sendable e = true) trace s ∧
    recorded (fun s e => simpleReturned s.1 e) trace = [⟨1, 0, 3, [7]⟩] ∧
    recorded (fun s e => optimizedReturned s.2 e) trace = [⟨2, 0, 3, [7]⟩] ∧ ¬ DropIn trace s := by
  obtain ⟨trace, s, run, reached⟩ := exists_execution bothStep (simpleStart 2, optimizedStart 2)
    (fun _ _ e => sendable e = true)
    [(0, .send 3 [7] {1} 0), (1, .accept none 0), (1, .read), (1, .update), (1, .finish)]
    (fun trace s => recorded (fun s e => simpleReturned s.1 e) trace = [⟨1, 0, 3, [7]⟩] ∧
      recorded (fun s e => optimizedReturned s.2 e) trace = [⟨2, 0, 3, [7]⟩])
    (by decide +kernel)
  obtain ⟨simple, optimized⟩ := of_decide_eq_true reached
  refine ⟨trace, s, run, simple, optimized, fun dropIn => ?_⟩
  have same : recorded (fun s e => simpleReturned s.1 e) trace =
      recorded (fun s e => optimizedReturned s.2 e) trace :=
    List.filterMap_congr dropIn.packets
  rw [simple, optimized] at same
  revert same
  decide

end DistributedMonitor.Wire
