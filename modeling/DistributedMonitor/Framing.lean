import DistributedMonitor.Letters

/-! The framing of the simple communicator. What one process has sent to another under a tag is
what has been returned of it, then what a receive has in its hands, then what is still to come. -/

namespace DistributedMonitor.Wire
open Library

variable {n limit : ℕ} {Content : Type} {trace : Trace (SimpleNetwork n) (Event n)}
  {s s' : SimpleNetwork n} {a a' : LetterNetwork n limit} {e : Event n} {p q self source : ProcessId n}

/-- MPI counts in an `int`. -/
def mpiCountLimit : ℕ := 2 ^ 31

def matchedTag (tag : Option MpiTag) (messages : List (MpiTag × Content)) : Option MpiTag :=
  (messages.find? fun message => tag.all (· = message.1)).map (·.1)

def sentBy (p q : ProcessId n) (tag : MpiTag) (s : SimpleNetwork n) (e : Event n) : List (Packet n) :=
  match e.2 with
  | .send messageType message recipients tag' =>
      if e.1 = p ∧ q ∈ recipients ∧ tag' = tag then
        [⟨s.currentLamportTime p + 1, p, messageType, message⟩]
      else []
  | _ => []

def sentOn (p q : ProcessId n) (tag : MpiTag) (trace : Trace (SimpleNetwork n) (Event n)) :
    List (Packet n) :=
  chronicle (sentBy p q tag) trace

def handTag (q : ProcessId n) : Trace (SimpleNetwork n) (Event n) → Option MpiTag
  | [] => none
  | (s, self, .accept tag source) :: earlier =>
      if self = q then matchedTag tag (s.channel source q) else handTag q earlier
  | _ :: earlier => handTag q earlier

def returnedBy (p q : ProcessId n) (tag : MpiTag) (earlier : Trace (SimpleNetwork n) (Event n))
    (s : SimpleNetwork n) (e : Event n) : List (Packet n) :=
  match simpleReturned s e with
  | some packet =>
      if e.1 = q ∧ packet.source = p ∧ handTag q earlier = some tag then [packet] else []
  | none => []

def returnedOn (p q : ProcessId n) (tag : MpiTag) :
    Trace (SimpleNetwork n) (Event n) → List (Packet n)
  | [] => []
  | (s, e) :: earlier => returnedOn p q tag earlier ++ returnedBy p q tag earlier s e

/-- Every receive returns one packet as it was sent, the packets of a sender and a tag each once
and in order. -/
structure Framed (trace : Trace (SimpleNetwork n) (Event n)) (s : SimpleNetwork n) : Prop where
  inOrder : ∀ p q tag, returnedOn p q tag trace <+: sentOn p q tag trace
  /-- No return is missing from these lists. -/
  accounted : ∀ later earlier s₀ q packet, trace = later ++ (s₀, q, .finish) :: earlier →
    simpleReturned s₀ (q, .finish) = some packet →
    ∃ tag, handTag q earlier = some tag ∧ packet ∈ sentOn packet.source q tag earlier
  /-- What a receive takes first is a header. -/
  header : ∀ q source tag content rest, s.thread q = .listening →
    firstTagged tag (s.channel source q) = some (content, rest) →
    ∃ rawPacket, content = .header rawPacket
  /-- What it takes next is the payload of that length, and it is there. -/
  payload : ∀ q tag source rawPacket, s.thread q = .accepted tag source rawPacket →
    rawPacket.nextPacketLength = 0 ∨ ∃ data rest,
      firstTagged tag (s.channel source q) = some (.chars data, rest) ∧
      data.length = rawPacket.nextPacketLength.toNat
  /-- When nothing is under way any more, everything has been returned. -/
  complete : ∀ p q tag, s.thread q = .listening → (∀ message ∈ s.channel p q, message.1 ≠ tag) →
    returnedOn p q tag trace = sentOn p q tag trace

def LetterThread.handOn (p : ProcessId n) (tag : MpiTag) (held : Option MpiTag) :
    LetterThread n limit → List (Packet n)
  | .listening => []
  | .accepted _ source letter | .read source letter | .updated source letter =>
      if source = p ∧ held = some tag then [letter.packet p] else []

def waitingOn (p q : ProcessId n) (tag : MpiTag) (a : LetterNetwork n limit) : List (Packet n) :=
  ((a.channel p q).filter (·.1 = tag)).map (·.2.packet p)

theorem matchedTag_frames (tag : Option MpiTag) (letters : List (MpiTag × Letter limit)) :
    matchedTag tag (letters.flatMap simpleFormat.frame) = matchedTag tag letters := by
  unfold matchedTag
  induction letters with
  | nil => rfl
  | cons letter rest ih =>
    rw [List.flatMap_cons, List.find?_append, List.find?_cons]
    cases suits : tag.all (· = letter.1) with
    | true => simp [simpleFormat, simpleMessages, suits]
    | false =>
      have skips : (simpleFormat.frame letter).find? (fun message => tag.all (· = message.1)) =
          none := by
        apply List.find?_eq_none.2
        intro message member
        rw [simpleFormat.tagged letter message member, suits]
        exact Bool.false_ne_true
      rw [skips, Option.none_or]
      exact ih

theorem Shows.matchedTag {letters : List (MpiTag × Letter limit)}
    {messages : List (MpiTag × SimpleContent)} (shows : Shows simpleFormat none letters messages)
    (tag : Option MpiTag) : Wire.matchedTag tag messages = Wire.matchedTag tag letters := by
  cases shows
  exact matchedTag_frames tag letters

theorem matchedTag_here {tag : Option MpiTag} {tag' : MpiTag} {content : Content}
    {before after : List (MpiTag × Content)}
    (skips : ∀ message ∈ before, tag.all (· = message.1) = false)
    (suits : tag.all (· = tag') = true) :
    matchedTag tag (before ++ (tag', content) :: after) = some tag' := by
  have none' : before.find? (fun message => tag.all (· = message.1)) = none :=
    List.find?_eq_none.2 fun message member => by simp [skips message member]
  simp [matchedTag, none', suits]

theorem skipped_tag {tag : Option MpiTag} {tag' other : MpiTag}
    (skip : tag.all (· = other) = false) (suits : tag.all (· = tag') = true) : other ≠ tag' := by
  intro same
  rw [same, suits] at skip
  cases skip

theorem filter_taken {tag : Option MpiTag} {tag' : MpiTag} {letter : Letter limit}
    {before after : List (MpiTag × Letter limit)}
    (skips : ∀ other ∈ before, tag.all (· = other.1) = false) (suits : tag.all (· = tag') = true)
    (under : MpiTag) :
    (before ++ (tag', letter) :: after).filter (·.1 = under) =
      (if tag' = under then [(tag', letter)] else []) ++ (before ++ after).filter (·.1 = under) := by
  rw [List.filter_append, List.filter_append, List.filter_cons]
  by_cases own : tag' = under
  · have none' : before.filter (·.1 = under) = [] := by
      apply List.filter_eq_nil_iff.2
      intro other member same
      exact skipped_tag (skips other member) suits ((of_decide_eq_true same).trans own.symm)
    simp [own, none']
  · simp [own]

theorem waitingOn_send (messageType : UInt8) (message : ByteString)
    (recipients : Finset (ProcessId n)) (tag : MpiTag) (fits : message.length < limit)
    (p q : ProcessId n) (under : MpiTag)
    (clock : s.currentLamportTime = a.currentLamportTime) :
    waitingOn p q under (a.send self recipients fun lamportTime =>
        [(tag, ⟨lamportTime, messageType, message, fits⟩)]) =
      waitingOn p q under a ++ sentBy p q under s (self, .send messageType message recipients tag) := by
  simp only [waitingOn, Network.send, sentBy]
  by_cases addressed : p = self ∧ q ∈ recipients
  · obtain ⟨rfl, member⟩ := addressed
    rw [if_pos ⟨rfl, member⟩, List.filter_append, List.map_append]
    by_cases own : tag = under
    · simp [own, member, Letter.packet, clock]
    · simp [own]
  · rw [if_neg addressed, if_neg fun here => addressed ⟨here.1.symm, here.2.1⟩, List.append_nil]

theorem waitingOn_goto (thread : LetterThread n limit) (under : MpiTag) :
    waitingOn p q under (a.goto self thread) = waitingOn p q under a := rfl

theorem waitingOn_accept {tag : Option MpiTag} {letter : Letter limit}
    {rest : List (MpiTag × Letter limit)}
    (found : firstTagged tag (a.channel source self) = some (letter, rest))
    (p q : ProcessId n) (under : MpiTag) :
    waitingOn p q under a =
      (if q = self then (LetterThread.accepted tag source letter).handOn p under
        (matchedTag tag (a.channel source self)) else []) ++
        waitingOn p q under (a.leave source self rest) := by
  obtain ⟨before, tag', after, channel, rfl, skips, suits⟩ := firstTagged_some found
  rw [channel, matchedTag_here skips suits]
  simp only [waitingOn, Network.leave, LetterThread.handOn, Option.some.injEq]
  by_cases here : p = source ∧ q = self
  · obtain ⟨rfl, rfl⟩ := here
    rw [channel, filter_taken skips suits, List.map_append]
    by_cases own : tag' = under <;> simp [own]
  · rw [if_neg here]
    by_cases mine : q = self
    · have other : source ≠ p := fun same => here ⟨same.symm, mine⟩
      simp [other]
    · simp [mine]

structure Tally (trace : Trace (SimpleNetwork n) (Event n)) (s : SimpleNetwork n)
    (a : LetterNetwork n limit) : Prop where
  refines : Refines simpleFormat LetterThread.simple s a
  account : ∀ p q tag, sentOn p q tag trace = returnedOn p q tag trace ++
    ((a.thread q).handOn p tag (handTag q trace) ++ waitingOn p q tag a)
  held : ∀ q, a.thread q = .listening ∨ (handTag q trace).isSome

theorem handTag_other {q self : ProcessId n} {action : Action n}
    (other : ∀ tag source, action = .accept tag source → self ≠ q) :
    handTag q ((s, (self, action)) :: trace) = handTag q trace := by
  cases action with
  | accept tag source => exact if_neg (other tag source rfl)
  | send | read | update | finish => rfl

theorem returnedBy_none (silent : simpleReturned s e = none) (tag : MpiTag) :
    returnedBy p q tag trace s e = [] := by
  rw [returnedBy, silent]

namespace Tally

theorem turn (tally : Tally trace s a) {action : Action n} {thread : LetterThread n limit}
    {network : LetterNetwork n limit}
    (refines : Refines simpleFormat LetterThread.simple s' (network.goto self thread))
    (channels : network.channel = a.channel) (threads : network.thread = a.thread)
    (hands : ∀ p tag held, thread.handOn p tag held = (a.thread self).handOn p tag held)
    (busy : a.thread self ≠ .listening)
    (unsent : ∀ p q tag, sentBy p q tag s (self, action) = [])
    (silent : simpleReturned s (self, action) = none)
    (kept : ∀ tag source, action ≠ .accept tag source) :
    Tally ((s, (self, action)) :: trace) s' (network.goto self thread) := by
  have tags : ∀ q, handTag q ((s, (self, action)) :: trace) = handTag q trace :=
    fun q => handTag_other fun tag source same => absurd same (kept tag source)
  refine ⟨refines, fun p q tag => ?_, fun q => ?_⟩
  · have account := tally.account p q tag
    rw [sentOn] at account
    rw [sentOn, chronicle, returnedOn, returnedBy_none silent, unsent, List.append_nil,
      List.append_nil, account, tags, waitingOn_goto, Network.goto_thread]
    simp only [waitingOn, channels, threads]
    split_ifs with mine
    · rw [mine, hands]
    · rfl
  · rw [tags, Network.goto_thread, threads]
    split_ifs with mine
    · exact .inr (mine ▸ (tally.held self).resolve_left busy)
    · exact tally.held q

theorem accept (tally : Tally trace s a) (here : a.thread self = .listening)
    {tag : Option MpiTag} {letter : Letter limit} {rest : List (MpiTag × Letter limit)}
    (found : firstTagged tag (a.channel source self) = some (letter, rest))
    (same : matchedTag tag (s.channel source self) = matchedTag tag (a.channel source self))
    (refines : Refines simpleFormat LetterThread.simple s'
      ((a.leave source self rest).goto self (.accepted tag source letter))) :
    Tally ((s, (self, .accept tag source)) :: trace) s'
      ((a.leave source self rest).goto self (.accepted tag source letter)) := by
  have tags : ∀ q, handTag q ((s, (self, .accept tag source)) :: trace) =
      if self = q then matchedTag tag (a.channel source self) else handTag q trace := by
    intro q
    rw [handTag]
    split_ifs with mine
    · rw [← mine, same]
    · rfl
  refine ⟨refines, fun p q under => ?_, fun q => ?_⟩
  · have account := tally.account p q under
    rw [sentOn, waitingOn_accept found] at account
    rw [sentOn, chronicle, returnedOn, returnedBy_none (by rfl), List.append_nil, tags,
      waitingOn_goto, Network.goto_thread, account]
    by_cases mine : q = self
    · subst mine
      simp [here, LetterThread.handOn, sentBy]
    · simp [mine, Ne.symm mine, Network.leave, sentBy]
  · rw [tags]
    by_cases mine : self = q
    · obtain ⟨before, tag', after, channel, -, skips, suits⟩ := firstTagged_some found
      rw [if_pos mine, channel, matchedTag_here skips suits]
      exact .inr rfl
    · rw [if_neg mine, Network.goto_thread, if_neg (Ne.symm mine)]
      exact tally.held q

theorem finish (tally : Tally trace s a) {letter : Letter limit}
    (here : a.thread self = .updated source letter)
    (refines : Refines simpleFormat LetterThread.simple s' (a.goto self .listening)) :
    Tally ((s, (self, .finish)) :: trace) s' (a.goto self .listening) := by
  have thread := tally.refines.thread self
  rw [here] at thread
  have tags : ∀ q, handTag q ((s, (self, .finish)) :: trace) = handTag q trace :=
    fun q => handTag_other fun tag source => by simp
  have returns : simpleReturned s (self, .finish) = some (letter.packet source) := by
    simp only [simpleReturned, thread, LetterThread.simple]
    rfl
  refine ⟨refines, fun p q under => ?_, fun q => ?_⟩
  · have account := tally.account p q under
    rw [sentOn] at account
    rw [sentOn, chronicle, returnedOn, account, tags, waitingOn_goto, Network.goto_thread]
    simp only [returnedBy, returns, sentBy, List.append_nil]
    by_cases mine : q = self
    · subst mine
      by_cases from' : source = p
      · simp [here, LetterThread.handOn, Letter.packet, from']
      · simp [here, LetterThread.handOn, Letter.packet, from']
    · simp [mine, Ne.symm mine]
  · rw [tags, Network.goto_thread]
    split_ifs
    · exact .inl rfl
    · exact tally.held q

theorem step (tally : Tally trace s a) (small : limit ≤ UInt32.size)
    (may : within limit e = true) (taken : simpleStep s e = some s') :
    ∃ a' : LetterNetwork n limit, Tally ((s, e) :: trace) s' a' := by
  obtain ⟨self, action⟩ := e
  have matched := simple_step small tally.refines may
  rw [taken] at matched
  have thread := tally.refines.thread self
  cases action with
  | send messageType message recipients tag =>
    have fits : message.length < limit := of_decide_eq_true may
    simp only [letterStep, fits, dif_pos] at matched
    cases matched with
    | some refines =>
      refine ⟨_, refines, fun p q under => ?_, tally.held⟩
      have account := tally.account p q under
      rw [sentOn] at account
      rw [sentOn, chronicle, returnedOn, returnedBy_none (by rfl), List.append_nil,
        waitingOn_send (s := s) _ _ _ _ fits p q under tally.refines.clock, account]
      simp only [List.append_assoc]
      rfl
  | accept tag source =>
    cases here : a.thread self with
    | listening =>
      simp only [letterStep, here] at matched
      cases found : firstTagged tag (a.channel source self) with
      | none =>
        rw [found] at matched
        cases matched
      | some both =>
        rw [found] at matched
        cases matched with
        | some refines =>
          have closed : Shows simpleFormat none (a.channel source self) (s.channel source self) :=
            tally.refines.channel_listening here
          exact ⟨_, tally.accept here found (closed.matchedTag tag) refines⟩
    | accepted | read | updated =>
      simp only [letterStep, here] at matched
      cases matched
  | read =>
    cases here : a.thread self with
    | accepted tag source letter =>
      simp only [letterStep, here] at matched
      cases matched with
      | some refines =>
        exact ⟨_, tally.turn refines rfl rfl (fun _ _ _ => by rw [here]; rfl)
          (by rw [here]; simp) (fun _ _ _ => rfl) (by rfl) fun _ _ => by simp⟩
    | listening | read | updated =>
      simp only [letterStep, here] at matched
      cases matched
  | update =>
    cases here : a.thread self with
    | read source letter =>
      simp only [letterStep, here] at matched
      cases matched with
      | some refines =>
        exact ⟨_, tally.turn refines rfl rfl (fun _ _ _ => by rw [here]; rfl)
          (by rw [here]; simp) (fun _ _ _ => rfl) (by rfl) fun _ _ => by simp⟩
    | listening | accepted | updated =>
      simp only [letterStep, here] at matched
      cases matched
  | finish =>
    cases here : a.thread self with
    | updated source letter =>
      simp only [letterStep, here] at matched
      cases matched with
      | some refines => exact ⟨_, tally.finish here refines⟩
    | listening | accepted | read =>
      simp only [letterStep, here] at matched
      cases matched

end Tally

theorem tally_start : Tally [] (simpleStart n)
    (⟨fun _ => 0, fun _ => .listening, fun _ _ => []⟩ : LetterNetwork n limit) where
  refines := ⟨rfl, fun _ => rfl, fun _ _ => .closed []⟩
  account _ _ _ := rfl
  held _ := .inl rfl

theorem tally_run (small : limit ≤ UInt32.size)
    (run : SimpleRun n (fun _ _ e => within limit e = true) trace s) :
    ∃ a : LetterNetwork n limit, Tally trace s a := by
  apply run.history_invariant (I := fun trace s => ∃ a : LetterNetwork n limit, Tally trace s a)
  · rintro _ rfl
    exact ⟨_, tally_start⟩
  · rintro trace s e s' _ ⟨a, tally⟩ may taken
    exact tally.step small may taken

namespace Tally

theorem header (tally : Tally trace s a) {tag : Option MpiTag} {content : SimpleContent}
    {rest : List (MpiTag × SimpleContent)} (listening : s.thread q = .listening)
    (found : firstTagged tag (s.channel source q) = some (content, rest)) :
    ∃ rawPacket, content = .header rawPacket := by
  have thread := tally.refines.thread q
  rw [listening] at thread
  cases here : a.thread q with
  | listening =>
    have closed : Shows simpleFormat none (a.channel source q) (s.channel source q) :=
      tally.refines.channel_listening here
    cases letters : firstTagged tag (a.channel source q) with
    | none =>
      rw [closed.closed_none letters] at found
      cases found
    | some both =>
      obtain ⟨before, after, tag', skips, suits, messages, -⟩ := tally.refines.accept here letters
      have takes : firstTagged tag (s.channel source q) = some (.header both.1.header,
          before ++ (simpleFormat.left (tag', both.1) ++ after)) := by
        rw [messages]
        exact firstTagged_here skips suits
      rw [takes] at found
      cases found
      exact ⟨_, rfl⟩
  | accepted | read | updated =>
    rw [here] at thread
    cases thread

theorem payload (tally : Tally trace s a) (small : limit ≤ UInt32.size) {tag : Option MpiTag}
    {rawPacket : RawPacket} (accepted : s.thread q = .accepted tag source rawPacket) :
    rawPacket.nextPacketLength = 0 ∨ ∃ data rest,
      firstTagged tag (s.channel source q) = some (.chars data, rest) ∧
      data.length = rawPacket.nextPacketLength.toNat := by
  have thread := tally.refines.thread q
  rw [accepted] at thread
  cases here : a.thread q with
  | accepted tag' source' letter =>
    rw [here] at thread
    cases thread
    obtain ⟨before, after, tag', skips, suits, messages, -⟩ := tally.refines.read here
    rw [← UInt32.toNat_inj, length_header small]
    by_cases nothing : letter.message = []
    · exact .inl (congrArg List.length nothing)
    · rw [simple_left_cons nothing] at messages
      rw [messages]
      exact .inr ⟨_, _, firstTagged_here skips suits, rfl⟩
  | listening | read | updated =>
    rw [here] at thread
    cases thread

theorem complete (tally : Tally trace s a) {tag : MpiTag} (listening : s.thread q = .listening)
    (nothing : ∀ message ∈ s.channel p q, message.1 ≠ tag) :
    returnedOn p q tag trace = sentOn p q tag trace := by
  have thread := tally.refines.thread q
  rw [listening] at thread
  cases here : a.thread q with
  | listening =>
    have closed : Shows simpleFormat none (a.channel p q) (s.channel p q) :=
      tally.refines.channel_listening here
    have waiting : waitingOn p q tag a = [] := by
      apply List.map_eq_nil_iff.2
      apply List.filter_eq_nil_iff.2
      intro letter member same
      cases letters : firstTagged (some tag) (a.channel p q) with
      | none =>
        have skip := firstTagged_none letters letter member
        simp [of_decide_eq_true same] at skip
      | some both =>
        obtain ⟨before, after, tag', -, suits, messages, -⟩ := tally.refines.accept here letters
        have own : tag = tag' := of_decide_eq_true suits
        apply nothing (tag', .header both.1.header) _ own.symm
        rw [messages]
        exact List.mem_append_right _ (List.mem_append_left _ (List.mem_cons_self ..))
    rw [tally.account, here, waiting]
    exact (List.append_nil _).symm
  | accepted | read | updated =>
    rw [here] at thread
    cases thread

theorem accounted (tally : Tally trace s a) {packet : Packet n}
    (returns : simpleReturned s (q, .finish) = some packet) :
    ∃ tag, handTag q trace = some tag ∧ packet ∈ sentOn packet.source q tag trace := by
  have thread := tally.refines.thread q
  cases here : a.thread q with
  | updated source letter =>
    rw [here] at thread
    obtain ⟨tag, held⟩ := Option.isSome_iff_exists.1 ((tally.held q).resolve_left (by rw [here]; simp))
    simp only [simpleReturned, thread, LetterThread.simple, Option.some.injEq] at returns
    subst returns
    refine ⟨tag, held, ?_⟩
    rw [tally.account, here, held]
    simp [LetterThread.handOn, toPacket, Letter.packet, Letter.header]
  | listening | accepted | read =>
    rw [here] at thread
    simp only [simpleReturned, thread, LetterThread.simple] at returns
    cases returns

end Tally

/-- The framing of the simple communicator. -/
theorem framed (run : SimpleRun n (fun _ _ e => within mpiCountLimit e = true) trace s) :
    Framed trace s := by
  have small : mpiCountLimit ≤ UInt32.size := by decide
  obtain ⟨a, tally⟩ := tally_run small run
  refine ⟨fun p q tag => ?_, ?_, ?_, ?_, ?_⟩
  · rw [tally.account]
    exact List.prefix_append ..
  · intro later earlier s₀ q packet same returns
    subst same
    obtain ⟨a₀, tally₀⟩ := tally_run small run.earlier
    exact tally₀.accounted returns
  · exact fun q source tag content rest listening found => tally.header listening found
  · exact fun q tag source rawPacket accepted => tally.payload small accepted
  · exact fun p q tag listening nothing => tally.complete listening nothing

theorem framed_two : ∃ trace s,
    SimpleRun 2 (fun _ _ e => within mpiCountLimit e = true) trace s ∧
      returnedOn 0 1 7 trace = [⟨2, 0, 3, []⟩] ∧ returnedOn 0 1 5 trace = [⟨1, 0, 4, [9]⟩] ∧
      Framed trace s := by
  obtain ⟨trace, s, run, reached⟩ := exists_execution simpleStep (simpleStart 2)
    (fun _ _ e => within mpiCountLimit e = true)
    [(0, .send 4 [9] {1} 5), (0, .send 3 [] {1} 7), (1, .accept (some 7) 0), (1, .read),
      (1, .update), (1, .finish), (1, .accept none 0), (1, .read), (1, .update), (1, .finish)]
    (fun trace _ => returnedOn 0 1 7 trace = [⟨2, 0, 3, []⟩] ∧
      returnedOn 0 1 5 trace = [⟨1, 0, 4, [9]⟩])
    (by decide +kernel)
  obtain ⟨empty', whole⟩ := of_decide_eq_true reached
  exact ⟨trace, s, run, empty', whole, framed run⟩

end DistributedMonitor.Wire
