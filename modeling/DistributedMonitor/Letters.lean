import DistributedMonitor.Network

/-! What both communicators carry: letters, whole and each in one message. Either communicator
does what this network does, step by step, with its own framing of every letter. -/

namespace DistributedMonitor.Wire
open Library

variable {n limit : ℕ} {Content Thread : Type}

/-- A packet on its way, with a message of less than so many bytes. -/
structure Letter (limit : ℕ) where
  lamportTime : UInt64
  messageType : UInt8
  message : ByteString
  fits : message.length < limit

inductive LetterThread (n limit : ℕ) where
  | listening
  | accepted (tag : Option MpiTag) (source : ProcessId n) (letter : Letter limit)
  | read (source : ProcessId n) (letter : Letter limit)
  | updated (source : ProcessId n) (letter : Letter limit)

abbrev LetterNetwork (n limit : ℕ) := Network n (Letter limit) (LetterThread n limit)

def letterStep (s : LetterNetwork n limit) (e : Event n) : Option (LetterNetwork n limit) :=
  match e.2, s.thread e.1 with
  | .send messageType message recipients tag, _ =>
      if fits : message.length < limit then
        some (s.send e.1 recipients fun lamportTime => [(tag, ⟨lamportTime, messageType, message, fits⟩)])
      else none
  | .accept tag source, .listening =>
      (firstTagged tag (s.channel source e.1)).map fun found =>
        (s.leave source e.1 found.2).goto e.1 (.accepted tag source found.1)
  | .read, .accepted _ source letter => some (s.goto e.1 (.read source letter))
  | .update, .read source letter =>
      some ((s.updateClock e.1 letter.lamportTime).goto e.1 (.updated source letter))
  | .finish, .updated _ _ => some (s.goto e.1 .listening)
  | _, _ => none

def Letter.packet (letter : Letter limit) (source : ProcessId n) : Packet n :=
  ⟨letter.lamportTime, source, letter.messageType, letter.message⟩

/-- The messages of a letter, and those of them that are left while it is being received. -/
structure Format (limit : ℕ) (Content : Type) where
  frame : MpiTag × Letter limit → List (MpiTag × Content)
  left : MpiTag × Letter limit → List (MpiTag × Content)
  tagged : ∀ letter, ∀ message ∈ frame letter, message.1 = letter.1

/-- How a channel looks, in which letters wait and one may have been accepted already. -/
inductive Shows (format : Format limit Content) : Option (Option MpiTag × Letter limit) →
    List (MpiTag × Letter limit) → List (MpiTag × Content) → Prop where
  | closed (letters : List (MpiTag × Letter limit)) :
      Shows format none letters (letters.flatMap format.frame)
  | opened {before after : List (MpiTag × Letter limit)} {tag : Option MpiTag} {tag' : MpiTag}
      {letter : Letter limit} (skips : ∀ other ∈ before, tag.all (· = other.1) = false)
      (fits : tag.all (· = tag') = true) :
      Shows format (some (tag, letter)) (before ++ after)
        (before.flatMap format.frame ++ (format.left (tag', letter) ++ after.flatMap format.frame))

def LetterThread.open? (source : ProcessId n) : LetterThread n limit → Option (Option MpiTag × Letter limit)
  | .accepted tag source' letter => if source' = source then some (tag, letter) else none
  | _ => none

theorem open_accepted (tag : Option MpiTag) (source : ProcessId n) (letter : Letter limit) :
    (LetterThread.accepted tag source letter).open? source = some (tag, letter) :=
  if_pos rfl

theorem open_other {tag : Option MpiTag} {source other : ProcessId n} (differs : other ≠ source)
    (letter : Letter limit) : (LetterThread.accepted tag source letter).open? other = none :=
  if_neg differs.symm

structure Refines (format : Format limit Content) (shown : LetterThread n limit → Thread)
    (s : Network n Content Thread) (a : LetterNetwork n limit) : Prop where
  clock : s.currentLamportTime = a.currentLamportTime
  thread : ∀ p, s.thread p = shown (a.thread p)
  channel : ∀ source p,
    Shows format ((a.thread p).open? source) (a.channel source p) (s.channel source p)

theorem firstTagged_skip {tag : Option MpiTag} {skipped messages : List (MpiTag × Content)}
    (skips : ∀ message ∈ skipped, tag.all (· = message.1) = false) :
    firstTagged tag (skipped ++ messages) =
      (firstTagged tag messages).map fun found => (found.1, skipped ++ found.2) := by
  induction skipped with
  | nil => simp
  | cons first rest ih =>
    obtain ⟨skip, skips⟩ := List.forall_mem_cons.1 skips
    rw [List.cons_append, firstTagged, if_neg (by rw [skip]; decide), ih skips, Option.map_map]
    rfl

theorem firstTagged_here {tag : Option MpiTag} {tag' : MpiTag} {before after : List (MpiTag × Content)}
    {content : Content} (skips : ∀ message ∈ before, tag.all (· = message.1) = false)
    (suits : tag.all (· = tag') = true) :
    firstTagged tag (before ++ (tag', content) :: after) = some (content, before ++ after) := by
  rw [firstTagged_skip skips, firstTagged, if_pos suits]
  rfl

theorem firstTagged_none {tag : Option MpiTag} {messages : List (MpiTag × Content)}
    (nothing : firstTagged tag messages = none) :
    ∀ message ∈ messages, tag.all (· = message.1) = false := by
  induction messages with
  | nil => exact nofun
  | cons first rest ih =>
    rw [firstTagged] at nothing
    split_ifs at nothing with fits
    exact List.forall_mem_cons.2
      ⟨Bool.eq_false_iff.2 fits, ih (Option.map_eq_none_iff.1 nothing)⟩

theorem firstTagged_some {tag : Option MpiTag} {messages rest : List (MpiTag × Content)}
    {content : Content} (found : firstTagged tag messages = some (content, rest)) :
    ∃ before tag' after, messages = before ++ (tag', content) :: after ∧ rest = before ++ after ∧
      (∀ message ∈ before, tag.all (· = message.1) = false) ∧ tag.all (· = tag') = true := by
  induction messages generalizing rest with
  | nil => cases found
  | cons first others ih =>
    rw [firstTagged] at found
    split_ifs at found with fits
    · cases found
      exact ⟨[], first.1, others, rfl, rfl, List.forall_mem_nil _, fits⟩
    · obtain ⟨⟨content', rest'⟩, later, same⟩ := Option.map_eq_some_iff.1 found
      cases same
      obtain ⟨before, tag', after, rfl, rfl, skips, fits'⟩ := ih later
      exact ⟨first :: before, tag', after, rfl, rfl,
        List.forall_mem_cons.2 ⟨Bool.eq_false_iff.2 fits, skips⟩, fits'⟩

theorem skips_frames (format : Format limit Content) {tag : Option MpiTag}
    {letters : List (MpiTag × Letter limit)} (skips : ∀ letter ∈ letters, tag.all (· = letter.1) = false) :
    ∀ message ∈ letters.flatMap format.frame, tag.all (· = message.1) = false := by
  intro message member
  obtain ⟨letter, listed, framed⟩ := List.mem_flatMap.1 member
  rw [format.tagged letter message framed]
  exact skips letter listed

theorem Shows.closed_none {format : Format limit Content} {letters : List (MpiTag × Letter limit)}
    {messages : List (MpiTag × Content)} (shows : Shows format none letters messages)
    {tag : Option MpiTag} (nothing : firstTagged tag letters = none) :
    firstTagged tag messages = none := by
  cases shows
  rw [← List.append_nil (letters.flatMap format.frame),
    firstTagged_skip (skips_frames format (firstTagged_none nothing))]
  rfl

theorem Shows.closed_some {format : Format limit Content} {letters rest : List (MpiTag × Letter limit)}
    {messages : List (MpiTag × Content)} (shows : Shows format none letters messages)
    {tag : Option MpiTag} {letter : Letter limit}
    (found : firstTagged tag letters = some (letter, rest)) : ∃ before tag' after,
      rest = before ++ after ∧ (∀ other ∈ before, tag.all (· = other.1) = false) ∧
      tag.all (· = tag') = true ∧ messages = before.flatMap format.frame ++
        (format.frame (tag', letter) ++ after.flatMap format.frame) := by
  cases shows
  obtain ⟨before, tag', after, rfl, rfl, skips, suits⟩ := firstTagged_some found
  exact ⟨before, tag', after, rfl, skips, suits, by rw [List.flatMap_append, List.flatMap_cons]⟩

theorem Shows.opened_some {format : Format limit Content} {letters : List (MpiTag × Letter limit)}
    {messages : List (MpiTag × Content)} {tag : Option MpiTag} {letter : Letter limit}
    (shows : Shows format (some (tag, letter)) letters messages) : ∃ before tag' after,
      letters = before ++ after ∧ (∀ message ∈ before.flatMap format.frame,
        tag.all (· = message.1) = false) ∧ tag.all (· = tag') = true ∧
      messages = before.flatMap format.frame ++
        (format.left (tag', letter) ++ after.flatMap format.frame) := by
  cases shows with
  | opened skips fits => exact ⟨_, _, _, rfl, skips_frames format skips, fits, rfl⟩

theorem Shows.taken (format : Format limit Content) (before after : List (MpiTag × Letter limit)) :
    Shows format none (before ++ after)
      (before.flatMap format.frame ++ after.flatMap format.frame) :=
  List.flatMap_append ▸ .closed _

theorem Shows.append {format : Format limit Content} {waiting : Option (Option MpiTag × Letter limit)}
    {letters : List (MpiTag × Letter limit)} {messages : List (MpiTag × Content)}
    (shows : Shows format waiting letters messages) (letter : MpiTag × Letter limit) :
    Shows format waiting (letters ++ [letter]) (messages ++ format.frame letter) := by
  cases shows with
  | closed =>
    rw [← List.flatMap_singleton format.frame letter, ← List.flatMap_append]
    exact .closed _
  | @opened before after tag tag' letter' skips fits =>
    have later : Shows format (some (tag, letter')) (before ++ (after ++ [letter]))
        (before.flatMap format.frame ++ (format.left (tag', letter') ++
          (after ++ [letter]).flatMap format.frame)) := .opened skips fits
    rw [List.flatMap_append, List.flatMap_singleton] at later
    simpa only [List.append_assoc] using later

namespace Refines

variable {format : Format limit Content} {shown : LetterThread n limit → Thread} {s : Network n Content Thread}
  {a : LetterNetwork n limit} {self source : ProcessId n}

theorem send (refines : Refines format shown s a) (recipients : Finset (ProcessId n))
    {messages : UInt64 → List (MpiTag × Content)} {letter : UInt64 → MpiTag × Letter limit}
    (framed : ∀ lamportTime, messages lamportTime = format.frame (letter lamportTime)) :
    Refines format shown (s.send self recipients messages)
      (a.send self recipients fun lamportTime => [letter lamportTime]) := by
  refine ⟨?_, refines.thread, fun source p => ?_⟩
  · simp only [Network.send, refines.clock]
  · simp only [Network.send, refines.clock, framed]
    split_ifs with addressed
    · exact (refines.channel source p).append _
    · exact refines.channel source p

theorem settle (refines : Refines format shown s a) (thread : LetterThread n limit)
    {letters : List (MpiTag × Letter limit)} {messages : List (MpiTag × Content)}
    (shows : Shows format (thread.open? source) letters messages)
    (others : ∀ other, other ≠ source → thread.open? other = (a.thread self).open? other) :
    Refines format shown ((s.leave source self messages).goto self (shown thread))
      ((a.leave source self letters).goto self thread) := by
  refine ⟨refines.clock, fun p => ?_, fun source' p => ?_⟩
  · rw [Network.goto_thread, Network.goto_thread]
    split_ifs
    · rfl
    · exact refines.thread p
  · have channel := refines.channel source' p
    simp only [Network.goto, Network.leave]
    by_cases mine : p = self
    · subst mine
      rw [Function.update_self]
      by_cases here : source' = source
      · subst here
        simpa using shows
      · simp only [here, false_and, if_false, others source' here]
        exact channel
    · simp only [mine, and_false, if_false, Function.update_of_ne mine]
      exact channel

theorem updateClock (refines : Refines format shown s a) (lamportTime : UInt64) :
    Refines format shown (s.updateClock self lamportTime) (a.updateClock self lamportTime) := by
  refine ⟨?_, refines.thread, refines.channel⟩
  simp only [Network.updateClock, refines.clock]

theorem goto (refines : Refines format shown s a) (thread : LetterThread n limit)
    (before : ∀ source, (a.thread self).open? source = none)
    (after : ∀ source, thread.open? source = none) :
    Refines format shown (s.goto self (shown thread)) (a.goto self thread) := by
  have settled : Refines format shown
      ((s.leave self self (s.channel self self)).goto self (shown thread))
      ((a.leave self self (a.channel self self)).goto self thread) := by
    apply refines.settle
    · rw [after, ← before self]
      exact refines.channel self self
    · intro other _
      rw [after, before]
  rwa [Network.leave_self, Network.leave_self] at settled

theorem update (refines : Refines format shown s a) {letter : Letter limit}
    (here : a.thread self = .read source letter) :
    Refines format shown
      ((s.updateClock self letter.lamportTime).goto self (shown (.updated source letter)))
      ((a.updateClock self letter.lamportTime).goto self (.updated source letter)) := by
  refine (refines.updateClock _).goto _ (fun source => ?_) fun _ => rfl
  change (a.thread self).open? source = none
  rw [here]
  rfl

theorem finish (refines : Refines format shown s a) {letter : Letter limit}
    (here : a.thread self = .updated source letter) :
    Refines format shown (s.goto self (shown .listening)) (a.goto self .listening) := by
  refine refines.goto _ (fun source => ?_) fun _ => rfl
  rw [here]
  rfl

theorem channel_listening (refines : Refines format shown s a) (here : a.thread self = .listening) :
    Shows format none (a.channel source self) (s.channel source self) := by
  have closed := refines.channel source self
  rwa [here] at closed

theorem accept (refines : Refines format shown s a) (here : a.thread self = .listening)
    {tag : Option MpiTag} {letter : Letter limit} {rest : List (MpiTag × Letter limit)}
    (found : firstTagged tag (a.channel source self) = some (letter, rest)) :
    ∃ (before after : List (MpiTag × Content)) (tag' : MpiTag),
      (∀ message ∈ before, tag.all (· = message.1) = false) ∧ tag.all (· = tag') = true ∧
      s.channel source self = before ++ (format.frame (tag', letter) ++ after) ∧
      Refines format shown
        ((s.leave source self (before ++ (format.left (tag', letter) ++ after))).goto self
          (shown (.accepted tag source letter)))
        ((a.leave source self rest).goto self (.accepted tag source letter)) := by
  obtain ⟨before, tag', after, rfl, skips, suits, messages⟩ :=
    (refines.channel_listening here).closed_some found
  refine ⟨_, _, tag', skips_frames format skips, suits, messages, refines.settle _ ?_ ?_⟩
  · rw [open_accepted]
    exact .opened skips suits
  · intro other differs
    rw [here, open_other differs]
    rfl

theorem read (refines : Refines format shown s a) {tag : Option MpiTag} {letter : Letter limit}
    (here : a.thread self = .accepted tag source letter) :
    ∃ (before after : List (MpiTag × Content)) (tag' : MpiTag),
      (∀ message ∈ before, tag.all (· = message.1) = false) ∧ tag.all (· = tag') = true ∧
      s.channel source self = before ++ (format.left (tag', letter) ++ after) ∧
      Refines format shown
        ((s.leave source self (before ++ after)).goto self (shown (.read source letter)))
        (a.goto self (.read source letter)) := by
  have waiting := refines.channel source self
  rw [here, open_accepted] at waiting
  obtain ⟨before, tag', after, letters, skips, suits, messages⟩ := waiting.opened_some
  refine ⟨_, _, tag', skips, suits, messages, ?_⟩
  have settled : Refines format shown ((s.leave source self (before.flatMap format.frame ++
      after.flatMap format.frame)).goto self (shown (.read source letter)))
      ((a.leave source self (a.channel source self)).goto self (.read source letter)) := by
    refine refines.settle (.read source letter) (letters ▸ .taken ..) fun other differs => ?_
    rw [here, open_other differs]
    rfl
  rwa [Network.leave_self] at settled

end Refines

def simpleFormat : Format limit SimpleContent where
  frame letter := simpleMessages letter.2.messageType letter.2.message letter.1 letter.2.lamportTime
  left letter := if letter.2.message = [] then [] else [(letter.1, .chars letter.2.message)]
  tagged letter message member := by
    unfold simpleMessages at member
    split_ifs at member <;> simp at member <;> rcases member with rfl | rfl <;> rfl

theorem simple_left_nil {tag : MpiTag} {letter : Letter limit} (nothing : letter.message = []) :
    simpleFormat.left (tag, letter) = [] :=
  if_pos nothing

theorem simple_left_cons {tag : MpiTag} {letter : Letter limit} (something : letter.message ≠ []) :
    simpleFormat.left (tag, letter) = [(tag, .chars letter.message)] :=
  if_neg something

def Letter.header (letter : Letter limit) : RawPacket :=
  ⟨letter.lamportTime, letter.messageType, UInt32.ofNat letter.message.length⟩

def LetterThread.simple : LetterThread n limit → SimpleThread n
  | .listening => .listening
  | .accepted tag source letter => .accepted tag source letter.header
  | .read source letter => .read source letter.header letter.message
  | .updated source letter => .updated source letter.header letter.message

theorem length_header (small : limit ≤ UInt32.size) (letter : Letter limit) :
    letter.header.nextPacketLength.toNat = letter.message.length := by
  have fits := letter.fits
  simp only [UInt32.size] at small
  rw [Letter.header, UInt32.toNat_ofNat']
  omega

theorem receiveChars_all (message : ByteString) : receiveChars message.length message = some message := by
  rw [receiveChars, if_pos le_rfl, Nat.sub_self, List.replicate_zero, List.append_nil]

def within (limit : ℕ) (e : Event n) : Bool :=
  match e.2 with
  | .send _ message _ _ => decide (message.length < limit)
  | _ => true

/-- The simple communicator can do what can be done with letters, and no more. -/
theorem simple_step {s : SimpleNetwork n} {a : LetterNetwork n limit} (small : limit ≤ UInt32.size)
    (refines : Refines simpleFormat LetterThread.simple s a) {e : Event n}
    (may : within limit e = true) :
    Option.Rel (Refines simpleFormat LetterThread.simple) (simpleStep s e) (letterStep a e) := by
  obtain ⟨self, action⟩ := e
  have thread := refines.thread self
  cases action with
  | send messageType message recipients tag =>
    have fits : message.length < limit := of_decide_eq_true may
    simp only [simpleStep, letterStep, fits, dif_pos]
    exact .some (refines.send recipients fun _ => rfl)
  | accept tag source =>
    cases here : a.thread self with
    | listening =>
      simp only [simpleStep, letterStep, thread, here, LetterThread.simple]
      cases found : firstTagged tag (a.channel source self) with
      | none =>
        rw [(refines.channel_listening here).closed_none found]
        exact .none
      | some both =>
        obtain ⟨before, after, tag', skips, suits, messages, accepted⟩ := refines.accept here found
        have takes : firstTagged tag (s.channel source self) = some (.header both.1.header,
            before ++ (simpleFormat.left (tag', both.1) ++ after)) := by
          rw [messages]
          exact firstTagged_here skips suits
        rw [takes]
        exact .some accepted
    | accepted | read | updated =>
      simp only [simpleStep, letterStep, thread, here, LetterThread.simple]
      exact .none
  | read =>
    cases here : a.thread self with
    | accepted tag source letter =>
      simp only [simpleStep, letterStep, thread, here, LetterThread.simple]
      obtain ⟨before, after, tag', skips, suits, messages, read⟩ := refines.read here
      by_cases nothing : letter.message = []
      · have length : letter.header.nextPacketLength = 0 := by
          rw [← UInt32.toNat_inj, length_header small, nothing]
          rfl
        rw [simple_left_nil nothing, List.nil_append] at messages
        rw [← messages, Network.leave_self, LetterThread.simple, nothing] at read
        rw [if_pos length]
        exact .some read
      · have length : letter.header.nextPacketLength ≠ 0 := by
          rw [← UInt32.toNat_inj.ne, length_header small]
          exact fun empty => nothing (List.length_eq_zero_iff.1 empty)
        rw [simple_left_cons nothing, List.singleton_append] at messages
        rw [if_neg length, messages, firstTagged_here skips suits, length_header small]
        simp only [receiveChars_all, Option.map_some]
        exact .some read
    | listening | read | updated =>
      simp only [simpleStep, letterStep, thread, here, LetterThread.simple]
      exact .none
  | update =>
    cases here : a.thread self with
    | read source letter =>
      simp only [simpleStep, letterStep, thread, here, LetterThread.simple]
      exact .some (refines.update here)
    | listening | accepted | updated =>
      simp only [simpleStep, letterStep, thread, here, LetterThread.simple]
      exact .none
  | finish =>
    cases here : a.thread self with
    | updated source letter =>
      simp only [simpleStep, letterStep, thread, here, LetterThread.simple]
      exact .some (refines.finish here)
    | listening | accepted | read =>
      simp only [simpleStep, letterStep, thread, here, LetterThread.simple]
      exact .none

def optimizedFormat : Format limit ByteString where
  frame letter := optimizedMessages letter.2.messageType letter.2.message letter.1 letter.2.lamportTime
  left letter := optimizedMessages letter.2.messageType letter.2.message letter.1 letter.2.lamportTime
  tagged letter message member := by rw [List.mem_singleton.1 member]

def LetterThread.optimized : LetterThread n limit → OptimizedThread n
  | .listening => .listening
  | .accepted tag source letter => .accepted tag source (letter.message.length + 9)
  | .read source letter => .read (letter.packet source)
  | .updated source letter => .updated (letter.packet source)

theorem optimized_step {s : OptimizedNetwork n} {a : LetterNetwork n limit}
    (refines : Refines optimizedFormat LetterThread.optimized s a) {e : Event n}
    (may : within limit e = true) :
    Option.Rel (Refines optimizedFormat LetterThread.optimized) (optimizedStep s e)
      (letterStep a e) := by
  obtain ⟨self, action⟩ := e
  have thread := refines.thread self
  cases action with
  | send messageType message recipients tag =>
    have fits : message.length < limit := of_decide_eq_true may
    simp only [optimizedStep, letterStep, fits, dif_pos]
    exact .some (refines.send recipients fun _ => rfl)
  | accept tag source =>
    cases here : a.thread self with
    | listening =>
      simp only [optimizedStep, letterStep, thread, here, LetterThread.optimized]
      cases found : firstTagged tag (a.channel source self) with
      | none =>
        rw [(refines.channel_listening here).closed_none found]
        exact .none
      | some both =>
        -- the message is only probed, and the channel stays as it is
        obtain ⟨before, after, tag', skips, suits, messages, accepted⟩ := refines.accept here found
        rw [show before ++ (optimizedFormat.left (tag', both.1) ++ after) = s.channel source self from
          messages.symm, Network.leave_self] at accepted
        have probes : firstTagged tag (s.channel source self) =
            some (encode both.1.lamportTime both.1.messageType both.1.message, before ++ after) := by
          rw [messages]
          exact firstTagged_here skips suits
        rw [probes, Option.map_some, length_encode]
        exact .some accepted
    | accepted | read | updated =>
      simp only [optimizedStep, letterStep, thread, here, LetterThread.optimized]
      exact .none
  | read =>
    cases here : a.thread self with
    | accepted tag source letter =>
      simp only [optimizedStep, letterStep, thread, here, LetterThread.optimized]
      obtain ⟨before, after, tag', skips, suits, messages, read⟩ := refines.read here
      have takes : firstTagged tag (s.channel source self) =
          some (encode letter.lamportTime letter.messageType letter.message, before ++ after) := by
        rw [messages]
        exact firstTagged_here skips suits
      have received : receiveChars (letter.message.length + 9)
          (encode letter.lamportTime letter.messageType letter.message) =
          some (encode letter.lamportTime letter.messageType letter.message) := by
        rw [← length_encode letter.lamportTime letter.messageType, receiveChars_all]
      rw [takes]
      simp only [Option.bind_eq_bind, Option.bind_some, received, getPacket_encode]
      exact .some read
    | listening | read | updated =>
      simp only [optimizedStep, letterStep, thread, here, LetterThread.optimized]
      exact .none
  | update =>
    cases here : a.thread self with
    | read source letter =>
      simp only [optimizedStep, letterStep, thread, here, LetterThread.optimized]
      exact .some (refines.update here)
    | listening | accepted | updated =>
      simp only [optimizedStep, letterStep, thread, here, LetterThread.optimized]
      exact .none
  | finish =>
    cases here : a.thread self with
    | updated source letter =>
      simp only [optimizedStep, letterStep, thread, here, LetterThread.optimized]
      exact .some (refines.finish here)
    | listening | accepted | read =>
      simp only [optimizedStep, letterStep, thread, here, LetterThread.optimized]
      exact .none

end DistributedMonitor.Wire
