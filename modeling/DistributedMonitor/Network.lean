import DistributedMonitor.Library.Execution
import DistributedMonitor.Wire

/-! Processes that send to each other over MPI. A channel keeps the order of its messages, and
a receive takes the first of them that has its tag. A send is one step, which the sender's lock
covers; a receive takes as many as it has calls of MPI and updates of the clock. -/

namespace DistributedMonitor.Wire
open Library

variable {n : ℕ} {Content Thread : Type}

/-- What the threads of a process do. Sends are free to come between the steps of a receive. -/
inductive Action (n : ℕ) where
  | send (messageType : UInt8) (message : ByteString) (recipients : Finset (ProcessId n))
      (tag : MpiTag)
  /-- The first call of a `receive` finds a message of one source; no tag stands for any tag. -/
  | accept (tag : Option MpiTag) (source : ProcessId n)
  | read
  | update
  | finish

abbrev Event (n : ℕ) := ProcessId n × Action n

structure Network (n : ℕ) (Content Thread : Type) where
  currentLamportTime : ProcessId n → UInt64
  thread : ProcessId n → Thread
  channel : ProcessId n → ProcessId n → List (MpiTag × Content)

def firstTagged (tag : Option MpiTag) :
    List (MpiTag × Content) → Option (Content × List (MpiTag × Content))
  | [] => none
  | (tag', content) :: rest =>
      if tag.all (· = tag') then some (content, rest)
      else (firstTagged tag rest).map fun found => (found.1, (tag', content) :: found.2)

theorem firstTagged_mem {tag : Option MpiTag} {messages rest : List (MpiTag × Content)}
    {content : Content} (found : firstTagged tag messages = some (content, rest)) :
    (∃ tag', (tag', content) ∈ messages) ∧ ∀ message ∈ rest, message ∈ messages := by
  induction messages generalizing rest with
  | nil => cases found
  | cons first others ih =>
    simp only [firstTagged] at found
    split_ifs at found with fits
    · cases found
      exact ⟨⟨first.1, List.mem_cons_self ..⟩, fun message => List.mem_cons_of_mem _⟩
    · obtain ⟨⟨content', rest'⟩, later, same⟩ := Option.map_eq_some_iff.1 found
      cases same
      obtain ⟨⟨tag', member⟩, kept⟩ := ih later
      refine ⟨⟨tag', List.mem_cons_of_mem _ member⟩, fun message member => ?_⟩
      exact (List.mem_cons.1 member).elim (· ▸ List.mem_cons_self ..)
        fun member => List.mem_cons_of_mem _ (kept message member)

namespace Network

def send (s : Network n Content Thread) (self : ProcessId n) (recipients : Finset (ProcessId n))
    (messages : UInt64 → List (MpiTag × Content)) : Network n Content Thread :=
  let lamportTime := s.currentLamportTime self + 1
  { s with
    currentLamportTime := Function.update s.currentLamportTime self lamportTime
    channel := fun source recipient =>
      if source = self ∧ recipient ∈ recipients then
        s.channel source recipient ++ messages lamportTime
      else s.channel source recipient }

def goto (s : Network n Content Thread) (self : ProcessId n) (thread : Thread) :
    Network n Content Thread :=
  { s with thread := Function.update s.thread self thread }

def leave (s : Network n Content Thread) (source self : ProcessId n)
    (rest : List (MpiTag × Content)) : Network n Content Thread :=
  { s with channel := fun from' to' =>
      if from' = source ∧ to' = self then rest else s.channel from' to' }

@[simp] theorem leave_self (s : Network n Content Thread) (source self : ProcessId n) :
    s.leave source self (s.channel source self) = s := by
  have same : (fun from' to' => if from' = source ∧ to' = self then s.channel source self
      else s.channel from' to') = s.channel := by
    funext from' to'
    split_ifs with here
    · rw [here.1, here.2]
    · rfl
  rw [leave, same]

theorem goto_thread (s : Network n Content Thread) (self p : ProcessId n) (thread : Thread) :
    (s.goto self thread).thread p = if p = self then thread else s.thread p :=
  Function.update_apply ..

theorem goto_self (s : Network n Content Thread) (self : ProcessId n) (thread : Thread) :
    (s.goto self thread).thread self = thread :=
  Function.update_self ..

def updateClock (s : Network n Content Thread) (self : ProcessId n) (lamportTime : UInt64) :
    Network n Content Thread :=
  { s with
    currentLamportTime := Function.update s.currentLamportTime self
      (max lamportTime (s.currentLamportTime self) + 1) }

end Network

inductive SimpleContent where
  | header (rawPacket : RawPacket)
  | chars (data : ByteString)
  deriving DecidableEq

inductive SimpleThread (n : ℕ) where
  | listening
  /-- The header has been received, and the payload has not. -/
  | accepted (tag : Option MpiTag) (source : ProcessId n) (rawPacket : RawPacket)
  | read (source : ProcessId n) (rawPacket : RawPacket) (message : ByteString)
  | updated (source : ProcessId n) (rawPacket : RawPacket) (message : ByteString)

abbrev SimpleNetwork (n : ℕ) := Network n SimpleContent (SimpleThread n)

/-- The calls of `MPI_Send` for one recipient; an empty message has no payload. -/
def simpleMessages (messageType : UInt8) (message : ByteString) (tag : MpiTag)
    (lamportTime : UInt64) : List (MpiTag × SimpleContent) :=
  (tag, .header ⟨lamportTime, messageType, UInt32.ofNat message.length⟩) ::
    if message = [] then [] else [(tag, .chars message)]

/-- A message that is longer than the buffer is an error, and a shorter one fills its front. -/
def receiveChars (messageLength : ℕ) (data : ByteString) : Option ByteString :=
  if data.length ≤ messageLength then
    some (data ++ List.replicate (messageLength - data.length) 0)
  else none

/-- A header where a payload is expected, or the other way round, is an error. -/
def simpleStep (s : SimpleNetwork n) (e : Event n) : Option (SimpleNetwork n) :=
  match e.2, s.thread e.1 with
  | .send messageType message recipients tag, _ =>
      some (s.send e.1 recipients (simpleMessages messageType message tag))
  | .accept tag source, .listening =>
      match firstTagged tag (s.channel source e.1) with
      | some (.header rawPacket, rest) =>
          some ((s.leave source e.1 rest).goto e.1 (.accepted tag source rawPacket))
      | _ => none
  | .read, .accepted tag source rawPacket =>
      if rawPacket.nextPacketLength = 0 then some (s.goto e.1 (.read source rawPacket []))
      else
        match firstTagged tag (s.channel source e.1) with
        | some (.chars data, rest) =>
            (receiveChars rawPacket.nextPacketLength.toNat data).map fun message =>
              (s.leave source e.1 rest).goto e.1 (.read source rawPacket message)
        | _ => none
  | .update, .read source rawPacket message =>
      some ((s.updateClock e.1 rawPacket.lamportTime).goto e.1 (.updated source rawPacket message))
  | .finish, .updated _ _ _ => some (s.goto e.1 .listening)
  | _, _ => none

def simpleReturned (s : SimpleNetwork n) (e : Event n) : Option (Packet n) :=
  match e.2, s.thread e.1 with
  | .finish, .updated source rawPacket message => some (toPacket rawPacket source message)
  | _, _ => none

def simpleStart (n : ℕ) : SimpleNetwork n := ⟨fun _ => 0, fun _ => .listening, fun _ _ => []⟩

abbrev SimpleRun (n : ℕ) (contract : Permission (SimpleNetwork n) (Event n)) :
    Trace (SimpleNetwork n) (Event n) → SimpleNetwork n → Prop :=
  Execution simpleStep (· = simpleStart n) contract

inductive SimpleStep (s : SimpleNetwork n) : Event n → SimpleNetwork n → Prop where
  | send {self : ProcessId n} {messageType : UInt8} {message : ByteString}
      {recipients : Finset (ProcessId n)} {tag : MpiTag} :
      SimpleStep s (self, .send messageType message recipients tag)
        (s.send self recipients (simpleMessages messageType message tag))
  | accept {self source : ProcessId n} {tag : Option MpiTag} {rawPacket : RawPacket}
      {rest : List (MpiTag × SimpleContent)} (listening : s.thread self = .listening)
      (found : firstTagged tag (s.channel source self) = some (.header rawPacket, rest)) :
      SimpleStep s (self, .accept tag source)
        ((s.leave source self rest).goto self (.accepted tag source rawPacket))
  | empty {self source : ProcessId n} {tag : Option MpiTag} {rawPacket : RawPacket}
      (accepted : s.thread self = .accepted tag source rawPacket)
      (nothing : rawPacket.nextPacketLength = 0) :
      SimpleStep s (self, .read) (s.goto self (.read source rawPacket []))
  | read {self source : ProcessId n} {tag : Option MpiTag} {rawPacket : RawPacket}
      {data message : ByteString} {rest : List (MpiTag × SimpleContent)}
      (accepted : s.thread self = .accepted tag source rawPacket)
      (something : rawPacket.nextPacketLength ≠ 0)
      (found : firstTagged tag (s.channel source self) = some (.chars data, rest))
      (fills : receiveChars rawPacket.nextPacketLength.toNat data = some message) :
      SimpleStep s (self, .read)
        ((s.leave source self rest).goto self (.read source rawPacket message))
  | update {self source : ProcessId n} {rawPacket : RawPacket} {message : ByteString}
      (read : s.thread self = .read source rawPacket message) :
      SimpleStep s (self, .update)
        ((s.updateClock self rawPacket.lamportTime).goto self (.updated source rawPacket message))
  | finish {self source : ProcessId n} {rawPacket : RawPacket} {message : ByteString}
      (updated : s.thread self = .updated source rawPacket message) :
      SimpleStep s (self, .finish) (s.goto self .listening)

theorem simpleStep_cases {s s' : SimpleNetwork n} {e : Event n} (taken : simpleStep s e = some s') :
    SimpleStep s e s' := by
  obtain ⟨self, action⟩ := e
  cases action with
  | send messageType message recipients tag =>
    cases taken
    exact .send
  | accept tag source =>
    cases thread : s.thread self with
    | listening =>
      cases found : firstTagged tag (s.channel source self) with
      | none => simp [simpleStep, thread, found] at taken
      | some both =>
        obtain ⟨content, rest⟩ := both
        cases content with
        | header rawPacket =>
          simp only [simpleStep, thread, found, Option.some.injEq] at taken
          subst taken
          exact .accept thread found
        | chars data => simp [simpleStep, thread, found] at taken
    | accepted | read | updated => simp [simpleStep, thread] at taken
  | read =>
    cases thread : s.thread self with
    | accepted tag source rawPacket =>
      by_cases nothing : rawPacket.nextPacketLength = 0
      · simp only [simpleStep, thread, nothing, if_true, Option.some.injEq] at taken
        subst taken
        exact .empty thread nothing
      · simp only [simpleStep, thread, nothing, if_false] at taken
        cases found : firstTagged tag (s.channel source self) with
        | none => simp [found] at taken
        | some both =>
          obtain ⟨content, rest⟩ := both
          cases content with
          | header rawPacket' => simp [found] at taken
          | chars data =>
            rw [found] at taken
            obtain ⟨message, fills, rfl⟩ := Option.map_eq_some_iff.1 taken
            exact .read thread nothing found fills
    | listening | read | updated => simp [simpleStep, thread] at taken
  | update =>
    cases thread : s.thread self with
    | read source rawPacket message =>
      simp only [simpleStep, thread, Option.some.injEq] at taken
      subst taken
      exact .update thread
    | listening | accepted | updated => simp [simpleStep, thread] at taken
  | finish =>
    cases thread : s.thread self with
    | updated source rawPacket message =>
      simp only [simpleStep, thread, Option.some.injEq] at taken
      subst taken
      exact .finish thread
    | listening | accepted | read => simp [simpleStep, thread] at taken

theorem SimpleStep.taken {s s' : SimpleNetwork n} {e : Event n} (does : SimpleStep s e s') :
    simpleStep s e = some s' := by
  cases does with
  | send => rfl
  | accept listening found => simp only [simpleStep, listening, found]
  | empty accepted nothing => simp only [simpleStep, accepted, nothing, if_true]
  | read accepted something found fills =>
    simp only [simpleStep, accepted, something, if_false, found, fills, Option.map_some]
  | update read => simp only [simpleStep, read]
  | finish updated => simp only [simpleStep, updated]

inductive OptimizedThread (n : ℕ) where
  | listening
  /-- The message has been probed, and is still to be received. -/
  | accepted (tag : Option MpiTag) (source : ProcessId n) (messageLength : ℕ)
  | read (packet : Packet n)
  /-- The clock is updated, the stamp of the packet not yet rewritten. -/
  | updated (packet : Packet n)

abbrev OptimizedNetwork (n : ℕ) := Network n ByteString (OptimizedThread n)

def optimizedMessages (messageType : UInt8) (message : ByteString) (tag : MpiTag)
    (lamportTime : UInt64) : List (MpiTag × ByteString) :=
  [(tag, encode lamportTime messageType message)]

def optimizedStep (s : OptimizedNetwork n) (e : Event n) : Option (OptimizedNetwork n) :=
  match e.2, s.thread e.1 with
  | .send messageType message recipients tag, _ =>
      some (s.send e.1 recipients (optimizedMessages messageType message tag))
  | .accept tag source, .listening =>
      (firstTagged tag (s.channel source e.1)).map fun found =>
        s.goto e.1 (.accepted tag source found.1.length)
  | .read, .accepted tag source messageLength => do
      let (data, rest) ← firstTagged tag (s.channel source e.1)
      let message ← receiveChars messageLength data
      let packet ← getPacket message source
      return (s.leave source e.1 rest).goto e.1 (.read packet)
  | .update, .read packet =>
      some ((s.updateClock e.1 packet.lamportTime).goto e.1 (.updated packet))
  | .finish, .updated _ => some (s.goto e.1 .listening)
  | _, _ => none

/-- The last line of `updateTimestamp` reads the clock after the lock is gone. -/
def optimizedReturned (s : OptimizedNetwork n) (e : Event n) : Option (Packet n) :=
  match e.2, s.thread e.1 with
  | .finish, .updated packet => some { packet with lamportTime := s.currentLamportTime e.1 }
  | _, _ => none

def optimizedStart (n : ℕ) : OptimizedNetwork n := ⟨fun _ => 0, fun _ => .listening, fun _ _ => []⟩

end DistributedMonitor.Wire
