import DistributedMonitor.Framing

/-! The receive with a timeout. It makes the same calls of MPI as the receive without one, in
slices: what is posted is matched some time later, and the thread learns of that from
`MPI_Test`, until the time is up. -/

namespace DistributedMonitor.Wire
open Library

variable {n : ℕ}

/-- How far a receive with a timeout has come. -/
inductive Slice where
  /-- `MPI_Irecv` has been called for the header. -/
  | posted (tag : Option MpiTag)
  /-- The header has been received, and `MPI_Test` has not said so yet. -/
  | matched
  /-- `MPI_Irecv` has been called for the payload. -/
  | awaiting
  /-- The payload has been received, and `MPI_Test` has not said so yet. -/
  | filled
  deriving DecidableEq

structure TimedNetwork (n : ℕ) where
  network : SimpleNetwork n
  slice : ProcessId n → Option Slice

inductive TimedAction (n : ℕ) where
  | plain (action : Action n)
  | post (tag : Option MpiTag)
  | matchHeader (source : ProcessId n)
  | matchPayload
  | test
  | expire

abbrev TimedEvent (n : ℕ) := ProcessId n × TimedAction n

def Action.sends : Action n → Bool
  | .send .. => true
  | _ => false

def TimedNetwork.turn (s : TimedNetwork n) (self : ProcessId n) (slice : Option Slice)
    (network : SimpleNetwork n) : TimedNetwork n :=
  ⟨network, Function.update s.slice self slice⟩

/-- `MPI_Cancel` leaves a message that has not been matched where it is, and comes too late for
one that has. In either case the call returns without a packet. -/
def TimedNetwork.expire (s : TimedNetwork n) (self : ProcessId n) : TimedNetwork n :=
  s.turn self none (s.network.goto self .listening)

/-- The loop around `MPI_Test` turns as long as it finds nothing. -/
def TimedNetwork.test (s : TimedNetwork n) (self : ProcessId n) : Option (TimedNetwork n) :=
  match s.slice self, s.network.thread self with
  | some .matched, .accepted _ _ rawPacket =>
      if rawPacket.nextPacketLength = 0 then
        (simpleStep s.network (self, .read)).map (s.turn self none)
      else some (s.turn self (some .awaiting) s.network)
  | some .filled, _ => some (s.turn self none s.network)
  | _, _ => none

def timedStep (s : TimedNetwork n) (e : TimedEvent n) : Option (TimedNetwork n) :=
  match e.2, s.slice e.1 with
  | .plain action, slice =>
      if action.sends || slice.isNone then
        (simpleStep s.network (e.1, action)).map fun network => { s with network := network }
      else none
  | .post tag, none =>
      match s.network.thread e.1 with
      | .listening => some (s.turn e.1 (some (.posted tag)) s.network)
      | _ => none
  | .matchHeader source, some (.posted tag) =>
      (simpleStep s.network (e.1, .accept tag source)).map (s.turn e.1 (some .matched))
  | .matchPayload, some .awaiting =>
      (simpleStep s.network (e.1, .read)).map (s.turn e.1 (some .filled))
  | .test, _ => s.test e.1
  | .expire, some _ => some (s.expire e.1)
  | _, _ => none

def timedStart (n : ℕ) : TimedNetwork n := ⟨simpleStart n, fun _ => none⟩

abbrev TimedRun (n : ℕ) (contract : Permission (TimedNetwork n) (TimedEvent n)) :
    Trace (TimedNetwork n) (TimedEvent n) → TimedNetwork n → Prop :=
  Execution timedStep (· = timedStart n) contract

def Slice.isPosted : Slice → Bool
  | .posted _ => true
  | _ => false

/-- No message is too long, and no time is up but before a header has been received. -/
def calm (s : TimedNetwork n) (e : TimedEvent n) : Bool :=
  match e.2 with
  | .plain action => within mpiCountLimit (e.1, action)
  | .expire => (s.slice e.1).any (·.isPosted)
  | _ => true

def calls (q : ProcessId n) (tag : Option MpiTag) : TimedEvent n → Bool
  | (self, .post tag') => self = q && tag' = tag
  | _ => false

/-- The first event is the call, and until it returns the others are those of its slices and
what the other threads do. -/
def inCall (q : ProcessId n) (tag : Option MpiTag) (earlier : Trace (TimedNetwork n) (TimedEvent n))
    (s : TimedNetwork n) (e : TimedEvent n) : Bool :=
  calm s e && if earlier.isEmpty then calls q tag e else (s.slice q).isSome

abbrev duringCall (q : ProcessId n) (tag : Option MpiTag) :
    Permission (TimedNetwork n) (TimedEvent n) :=
  fun earlier s e => inCall q tag earlier s e = true

def besides (q : ProcessId n) (e : TimedEvent n) : Bool :=
  e.1 ≠ q || match e.2 with
    | .plain action => action.sends
    | _ => false

def timedReturned (s : TimedNetwork n) (e : TimedEvent n) : Option (Packet n) :=
  match e.2 with
  | .plain action => simpleReturned s.network (e.1, action)
  | _ => none

def outcome : TimedNetwork n → List (TimedEvent n) → Option (List (Packet n))
  | _, [] => some []
  | s, e :: rest => (timedStep s e).bind fun s' =>
      (outcome s' rest).map ((timedReturned s e).toList ++ ·)

/-- Nothing that happens later tells the two apart. -/
def AsIf (s s' : TimedNetwork n) : Prop := ∀ events, outcome s events = outcome s' events

variable {trace later : Trace (TimedNetwork n) (TimedEvent n)} {s s' t t' : TimedNetwork n}
  {e : TimedEvent n} {p q self source : ProcessId n} {tag : Option MpiTag}

inductive TimedStep (s : TimedNetwork n) : TimedEvent n → TimedNetwork n → Prop where
  | plain {self : ProcessId n} {action : Action n} {network : SimpleNetwork n}
      (free : action.sends = true ∨ s.slice self = none)
      (does : SimpleStep s.network (self, action) network) :
      TimedStep s (self, .plain action) { s with network := network }
  | post {self : ProcessId n} {tag : Option MpiTag} (idle : s.slice self = none)
      (listening : s.network.thread self = .listening) :
      TimedStep s (self, .post tag) (s.turn self (some (.posted tag)) s.network)
  | matchHeader {self source : ProcessId n} {tag : Option MpiTag} {network : SimpleNetwork n}
      (posted : s.slice self = some (.posted tag))
      (does : SimpleStep s.network (self, .accept tag source) network) :
      TimedStep s (self, .matchHeader source) (s.turn self (some .matched) network)
  | matchPayload {self : ProcessId n} {network : SimpleNetwork n}
      (awaiting : s.slice self = some .awaiting)
      (does : SimpleStep s.network (self, .read) network) :
      TimedStep s (self, .matchPayload) (s.turn self (some .filled) network)
  | empty {self source : ProcessId n} {tag : Option MpiTag} {rawPacket : RawPacket}
      {network : SimpleNetwork n} (matched : s.slice self = some .matched)
      (accepted : s.network.thread self = .accepted tag source rawPacket)
      (nothing : rawPacket.nextPacketLength = 0)
      (does : SimpleStep s.network (self, .read) network) :
      TimedStep s (self, .test) (s.turn self none network)
  | await {self source : ProcessId n} {tag : Option MpiTag} {rawPacket : RawPacket}
      (matched : s.slice self = some .matched)
      (accepted : s.network.thread self = .accepted tag source rawPacket)
      (something : rawPacket.nextPacketLength ≠ 0) :
      TimedStep s (self, .test) (s.turn self (some .awaiting) s.network)
  | done {self : ProcessId n} (filled : s.slice self = some .filled) :
      TimedStep s (self, .test) (s.turn self none s.network)
  | expire {self : ProcessId n} {slice : Slice} (under : s.slice self = some slice) :
      TimedStep s (self, .expire) (s.expire self)

theorem timedStep_cases (taken : timedStep s e = some s') : TimedStep s e s' := by
  obtain ⟨self, action⟩ := e
  unfold timedStep at taken
  split at taken
  next action' acts =>
    obtain rfl : action = _ := acts
    split_ifs at taken with free
    obtain ⟨network, does, rfl⟩ := Option.map_eq_some_iff.1 taken
    refine .plain ?_ (simpleStep_cases does)
    simp only [Bool.or_eq_true, Option.isNone_iff_eq_none] at free
    exact free
  next tag acts idle =>
    obtain rfl : action = _ := acts
    split at taken
    next listening =>
      cases taken
      exact .post idle listening
    next => cases taken
  next source tag acts posted =>
    obtain rfl : action = _ := acts
    obtain ⟨network, does, rfl⟩ := Option.map_eq_some_iff.1 taken
    exact .matchHeader posted (simpleStep_cases does)
  next acts awaiting =>
    obtain rfl : action = _ := acts
    obtain ⟨network, does, rfl⟩ := Option.map_eq_some_iff.1 taken
    exact .matchPayload awaiting (simpleStep_cases does)
  next slice acts =>
    obtain rfl : action = _ := acts
    unfold TimedNetwork.test at taken
    split at taken
    next rawPacket matched accepted =>
      split_ifs at taken with nothing
      · obtain ⟨network, does, rfl⟩ := Option.map_eq_some_iff.1 taken
        exact .empty matched accepted nothing (simpleStep_cases does)
      · cases taken
        exact .await matched accepted nothing
    next filled =>
      cases taken
      exact .done filled
    next => cases taken
  next slice acts under =>
    obtain rfl : action = _ := acts
    cases taken
    exact .expire under
  next => cases taken

theorem calls_iff : calls q tag e = true ↔ e = (q, .post tag) := by
  obtain ⟨self, action⟩ := e
  cases action with
  | post tag' => simp [calls]
  | plain | matchHeader | matchPayload | test | expire => simp [calls]

theorem turn_slice (s : TimedNetwork n) (self p : ProcessId n) (slice : Option Slice)
    (network : SimpleNetwork n) :
    (s.turn self slice network).slice p = if p = self then slice else s.slice p :=
  Function.update_apply ..

theorem simpleStep_other {network network' : SimpleNetwork n} {e : Event n}
    (does : SimpleStep network e network') (other : p ≠ e.1) : network'.thread p = network.thread p := by
  cases does with
  | send => rfl
  | accept | empty | read | update | finish => exact Function.update_of_ne other ..

theorem posted_listening {contract : Permission (TimedNetwork n) (TimedEvent n)}
    (run : TimedRun n contract trace s) :
    ∀ p tag, s.slice p = some (.posted tag) → s.network.thread p = .listening := by
  apply run.invariant (I := fun s => ∀ p tag, s.slice p = some (.posted tag) →
    s.network.thread p = .listening)
  · rintro _ rfl p tag posted
    cases posted
  · intro trace s e s' _ before _ taken p tag posted
    have elsewhere : ∀ (self : ProcessId n) (slice : Option Slice) (network : SimpleNetwork n),
        (s.turn self slice network).slice p = some (.posted tag) →
        (∀ tag', slice ≠ some (.posted tag')) →
        (p ≠ self → network.thread p = s.network.thread p) → network.thread p = .listening := by
      intro self slice network posted unposted kept
      rw [turn_slice] at posted
      split_ifs at posted with mine
      · exact absurd posted (unposted tag)
      · exact (kept mine).trans (before p tag posted)
    cases timedStep_cases taken with
    | @plain self action network free does =>
      by_cases mine : p = self
      · subst mine
        rcases free with sends | idle
        · cases does with
          | send => exact before p tag posted
          | accept | empty | read | update | finish => cases sends
        · cases idle.symm.trans posted
      · exact (simpleStep_other does mine).trans (before p tag posted)
    | @post self tag' idle listening =>
      rw [turn_slice] at posted
      split_ifs at posted with mine
      · exact mine ▸ listening
      · exact before p tag posted
    | matchHeader _ does | matchPayload _ does | empty _ _ _ does =>
      exact elsewhere _ _ _ posted (fun tag' => by simp) fun mine => simpleStep_other does mine
    | await | done => exact elsewhere _ _ _ posted (fun tag' => by simp) fun _ => rfl
    | expire =>
      exact elsewhere _ _ _ posted (fun tag' => by simp) fun mine => Function.update_of_ne mine ..

theorem simpleRun_of_calm (run : TimedRun n (fun _ s e => calm s e = true) trace s) :
    ∃ plain, SimpleRun n (fun _ _ e => within mpiCountLimit e = true) plain s.network := by
  apply run.invariant (I := fun s =>
    ∃ plain, SimpleRun n (fun _ _ e => within mpiCountLimit e = true) plain s.network)
  · rintro _ rfl
    exact ⟨[], .start rfl⟩
  · rintro trace s e s' run ⟨plain, before⟩ may taken
    cases timedStep_cases taken with
    | plain free does => exact ⟨_, before.next may does.taken⟩
    | matchHeader _ does | matchPayload _ does | empty _ _ _ does =>
      exact ⟨_, before.next (by rfl) does.taken⟩
    | post | await | done => exact ⟨_, before⟩
    | @expire self slice under =>
      simp only [calm, under, Option.any_some] at may
      cases slice with
      | posted tag =>
        have listening := posted_listening run self tag under
        have same : s.network.goto self .listening = s.network := by
          rw [Network.goto, ← listening, Function.update_eq_self]
        refine ⟨plain, ?_⟩
        change SimpleRun n _ plain (s.network.goto self .listening)
        rw [same]
        exact before
      | matched | awaiting | filled => cases may

def SimpleContent.isHeader : SimpleContent → Bool
  | .header _ => true
  | .chars _ => false

def headers (tag : Option MpiTag) (messages : List (MpiTag × SimpleContent)) : ℕ :=
  messages.countP fun message => tag.all (· = message.1) && message.2.isHeader

theorem headers_append (tag : Option MpiTag) (first second : List (MpiTag × SimpleContent)) :
    headers tag (first ++ second) = headers tag first + headers tag second :=
  List.countP_append

theorem headers_accept {messages rest : List (MpiTag × SimpleContent)} {rawPacket : RawPacket}
    (found : firstTagged tag messages = some (.header rawPacket, rest)) :
    headers tag messages = headers tag rest + 1 := by
  obtain ⟨before, tag', after, rfl, rfl, -, suits⟩ := firstTagged_some found
  have taken : headers tag ((tag', SimpleContent.header rawPacket) :: after) =
      headers tag after + 1 := by
    rw [headers, List.countP_cons, suits]
    rfl
  rw [headers_append, headers_append, taken, Nat.add_assoc]

theorem headers_read {messages rest : List (MpiTag × SimpleContent)} {data : ByteString}
    (tag' : Option MpiTag) (found : firstTagged tag messages = some (.chars data, rest)) :
    headers tag' messages = headers tag' rest := by
  obtain ⟨before, tag'', after, rfl, rfl, -, -⟩ := firstTagged_some found
  have taken : headers tag' ((tag'', SimpleContent.chars data) :: after) = headers tag' after := by
    rw [headers, List.countP_cons]
    simp [headers, SimpleContent.isHeader]
  rw [headers_append, headers_append, taken]

structure Elsewhere (q : ProcessId n) (network without : SimpleNetwork n) : Prop where
  clock : network.currentLamportTime = without.currentLamportTime
  thread : ∀ p, p ≠ q → network.thread p = without.thread p
  channel : ∀ source p, p ≠ q → network.channel source p = without.channel source p

structure Alongside (q : ProcessId n) (network without network' without' : SimpleNetwork n) :
    Prop where
  same : Elsewhere q network' without'
  still : without'.thread q = without.thread q
  channel : ∃ more : ProcessId n → List (MpiTag × SimpleContent), ∀ source,
    network'.channel source q = network.channel source q ++ more source ∧
    without'.channel source q = without.channel source q ++ more source

namespace Elsewhere

variable {network without : SimpleNetwork n}

theorem alongside (same : Elsewhere q network without) :
    Alongside q network without network without where
  same := same
  still := rfl
  channel := ⟨fun _ => [], fun _ => ⟨(List.append_nil _).symm, (List.append_nil _).symm⟩⟩

theorem send (same : Elsewhere q network without) (self : ProcessId n)
    (recipients : Finset (ProcessId n)) (messages : UInt64 → List (MpiTag × SimpleContent)) :
    Alongside q network without (network.send self recipients messages)
      (without.send self recipients messages) where
  same := by
    refine ⟨?_, same.thread, fun source p mine => ?_⟩
    · simp only [Network.send, same.clock]
    · simp only [Network.send, same.clock, same.channel source p mine]
  still := rfl
  channel := by
    refine ⟨fun source => if source = self ∧ q ∈ recipients then
      messages (without.currentLamportTime self + 1) else [], fun source => ?_⟩
    simp only [Network.send, same.clock]
    split_ifs
    · exact ⟨rfl, rfl⟩
    · exact ⟨(List.append_nil _).symm, (List.append_nil _).symm⟩

theorem leave (same : Elsewhere q network without) (differs : self ≠ q) (source : ProcessId n)
    (rest : List (MpiTag × SimpleContent)) :
    Alongside q network without (network.leave source self rest)
      (without.leave source self rest) where
  same := by
    refine ⟨same.clock, same.thread, fun source' p mine => ?_⟩
    simp only [Network.leave, same.channel source' p mine]
  still := rfl
  channel := by
    refine ⟨fun _ => [], fun source' => ?_⟩
    simp only [Network.leave, differs.symm, and_false, if_false, List.append_nil, and_self]

theorem updateClock (same : Elsewhere q network without) (self : ProcessId n)
    (lamportTime : UInt64) :
    Alongside q network without (network.updateClock self lamportTime)
      (without.updateClock self lamportTime) where
  same := by
    refine ⟨?_, same.thread, same.channel⟩
    simp only [Network.updateClock, same.clock]
  still := rfl
  channel := same.alongside.channel

end Elsewhere

theorem Alongside.goto {network without changed changed' : SimpleNetwork n}
    (along : Alongside q network without changed changed') (differs : self ≠ q)
    (thread : SimpleThread n) :
    Alongside q network without (changed.goto self thread) (changed'.goto self thread) where
  same := by
    refine ⟨along.same.clock, fun p mine => ?_, along.same.channel⟩
    rw [Network.goto_thread, Network.goto_thread, along.same.thread p mine]
  still := by
    rw [Network.goto_thread, if_neg differs.symm, along.still]
  channel := along.channel

theorem Elsewhere.step {network without network' : SimpleNetwork n} {e : Event n}
    (same : Elsewhere q network without) (does : SimpleStep network e network')
    (other : e.1 ≠ q ∨ e.2.sends = true) :
    ∃ without', SimpleStep without e without' ∧ Alongside q network without network' without' := by
  cases does with
  | @send self messageType message recipients tag =>
    exact ⟨_, .send, same.send self recipients _⟩
  | @accept self source tag rawPacket rest listening found =>
    have differs : self ≠ q := other.resolve_right (by simp [Action.sends])
    rw [same.thread self differs] at listening
    rw [same.channel source self differs] at found
    exact ⟨_, .accept listening found, (same.leave differs source rest).goto differs _⟩
  | @empty self source tag rawPacket accepted nothing =>
    have differs : self ≠ q := other.resolve_right (by simp [Action.sends])
    rw [same.thread self differs] at accepted
    exact ⟨_, .empty accepted nothing, same.alongside.goto differs _⟩
  | @read self source tag rawPacket data message rest accepted something found fills =>
    have differs : self ≠ q := other.resolve_right (by simp [Action.sends])
    rw [same.thread self differs] at accepted
    rw [same.channel source self differs] at found
    exact ⟨_, .read accepted something found fills, (same.leave differs source rest).goto differs _⟩
  | @update self source rawPacket message read =>
    have differs : self ≠ q := other.resolve_right (by simp [Action.sends])
    rw [same.thread self differs] at read
    exact ⟨_, .update read, (same.updateClock self rawPacket.lamportTime).goto differs _⟩
  | @finish self source rawPacket message updated =>
    have differs : self ≠ q := other.resolve_right (by simp [Action.sends])
    rw [same.thread self differs] at updated
    exact ⟨_, .finish updated, same.alongside.goto differs _⟩

theorem Elsewhere.take {network without : SimpleNetwork n} (same : Elsewhere q network without)
    (source : ProcessId n) (rest : List (MpiTag × SimpleContent)) (thread : SimpleThread n) :
    Elsewhere q ((network.leave source q rest).goto q thread) without := by
  refine ⟨same.clock, fun p mine => ?_, fun source' p mine => ?_⟩
  · rw [Network.goto_thread, if_neg mine]
    exact same.thread p mine
  · simp only [Network.goto, Network.leave, mine, and_false, if_false]
    exact same.channel source' p mine

theorem Elsewhere.read {network network' without : SimpleNetwork n}
    (same : Elsewhere q network without) (does : SimpleStep network (q, .read) network') :
    Elsewhere q network' without := by
  cases does with
  | @empty _ source tag rawPacket accepted nothing =>
    have taken := same.take q (network.channel q q) (.read source rawPacket [])
    rwa [Network.leave_self] at taken
  | @read _ source tag rawPacket data message rest => exact same.take source rest _

theorem read_headers {network network' : SimpleNetwork n}
    (does : SimpleStep network (q, .read) network') (tag : Option MpiTag) (source : ProcessId n) :
    headers tag (network'.channel source q) = headers tag (network.channel source q) := by
  cases does with
  | empty => rfl
  | read accepted something found =>
    simp only [Network.goto, Network.leave, and_true]
    split_ifs with here
    · rw [here, headers_read tag found]
    · rfl

/-- The networks in the middle of a call and without it: as long as the header has not been taken
they hold the same messages, and then one header is missing. -/
structure Apart (q : ProcessId n) (tag : Option MpiTag) (s t : TimedNetwork n) : Prop where
  elsewhere : Elsewhere q s.network t.network
  slices : ∀ p, p ≠ q → s.slice p = t.slice p
  listening : t.network.thread q = .listening
  idle : t.slice q = none
  call : s.slice q = some (.posted tag) ∧
      (∀ source, s.network.channel source q = t.network.channel source q) ∨
    (∃ slice, s.slice q = some slice ∧ slice.isPosted = false) ∧
      ∃ source, headers tag (t.network.channel source q) =
        headers tag (s.network.channel source q) + 1

theorem apart_post (listening : s.network.thread q = .listening) (idle : s.slice q = none) :
    Apart q tag (s.turn q (some (.posted tag)) s.network) s where
  elsewhere := ⟨rfl, fun _ _ => rfl, fun _ _ _ => rfl⟩
  slices p mine := by rw [turn_slice, if_neg mine]
  listening := listening
  idle := idle
  call := .inl ⟨by rw [turn_slice, if_pos rfl], fun _ => rfl⟩

namespace Apart

theorem grow (apart : Apart q tag s t)
    (along : Alongside q s.network t.network s'.network t'.network)
    (slices : ∀ p, p ≠ q → s'.slice p = t'.slice p) (here : s'.slice q = s.slice q)
    (there : t'.slice q = t.slice q) : Apart q tag s' t' := by
  obtain ⟨more, channels⟩ := along.channel
  refine ⟨along.same, slices, along.still.trans apart.listening, there.trans apart.idle, ?_⟩
  rw [here]
  rcases apart.call with ⟨posted, equal⟩ | ⟨under, source, missing⟩
  · left
    refine ⟨posted, fun source => ?_⟩
    rw [(channels source).1, (channels source).2, equal source]
  · right
    refine ⟨under, source, ?_⟩
    rw [(channels source).1, (channels source).2, headers_append, headers_append, missing]
    omega

theorem turn (apart : Apart q tag s t) (slice : Option Slice) {network without : SimpleNetwork n}
    (differs : self ≠ q) (along : Alongside q s.network t.network network without) :
    Apart q tag (s.turn self slice network) (t.turn self slice without) := by
  apply apart.grow along
  · intro p mine
    rw [turn_slice, turn_slice, apart.slices p mine]
  · rw [turn_slice, if_neg differs.symm]
  · rw [turn_slice, if_neg differs.symm]

theorem others (apart : Apart q tag s t) (does : TimedStep s e s') (other : besides q e = true) :
    ∃ t', TimedStep t e t' ∧ Apart q tag s' t' := by
  have still := apart.elsewhere.alongside
  cases does with
  | @plain self action network' free does =>
    have free' : self ≠ q ∨ action.sends = true := by simpa [besides] using other
    obtain ⟨without', does', along⟩ := apart.elsewhere.step does free'
    refine ⟨_, .plain ?_ does', apart.grow along apart.slices rfl rfl⟩
    rcases free' with differs | sends
    · exact apart.slices self differs ▸ free
    · exact .inl sends
  | @post self tag' idle listening =>
    have differs : self ≠ q := by simpa [besides] using other
    rw [apart.slices self differs] at idle
    rw [apart.elsewhere.thread self differs] at listening
    exact ⟨_, .post idle listening, apart.turn _ differs still⟩
  | @matchHeader self source tag' network' posted does =>
    have differs : self ≠ q := by simpa [besides] using other
    rw [apart.slices self differs] at posted
    obtain ⟨without', does', along⟩ := apart.elsewhere.step does (.inl differs)
    exact ⟨_, .matchHeader posted does', apart.turn _ differs along⟩
  | @matchPayload self network' awaiting does =>
    have differs : self ≠ q := by simpa [besides] using other
    rw [apart.slices self differs] at awaiting
    obtain ⟨without', does', along⟩ := apart.elsewhere.step does (.inl differs)
    exact ⟨_, .matchPayload awaiting does', apart.turn _ differs along⟩
  | @empty self source tag' rawPacket network' matched accepted zero does =>
    have differs : self ≠ q := by simpa [besides] using other
    rw [apart.slices self differs] at matched
    rw [apart.elsewhere.thread self differs] at accepted
    obtain ⟨without', does', along⟩ := apart.elsewhere.step does (.inl differs)
    exact ⟨_, .empty matched accepted zero does', apart.turn _ differs along⟩
  | @await self source tag' rawPacket matched accepted something =>
    have differs : self ≠ q := by simpa [besides] using other
    rw [apart.slices self differs] at matched
    rw [apart.elsewhere.thread self differs] at accepted
    exact ⟨_, .await matched accepted something, apart.turn _ differs still⟩
  | @done self filled =>
    have differs : self ≠ q := by simpa [besides] using other
    rw [apart.slices self differs] at filled
    exact ⟨_, .done filled, apart.turn _ differs still⟩
  | @expire self slice under =>
    have differs : self ≠ q := by simpa [besides] using other
    rw [apart.slices self differs] at under
    exact ⟨_, .expire under, apart.turn _ differs (still.goto differs _)⟩

theorem keeps_calm (apart : Apart q tag s t) (other : besides q e = true) (quiet : calm s e = true) :
    calm t e = true := by
  obtain ⟨self, action⟩ := e
  cases action with
  | expire =>
    have differs : self ≠ q := by simpa [besides] using other
    simp only [calm, ← apart.slices self differs] at quiet ⊢
    exact quiet
  | plain | post | matchHeader | matchPayload | test => exact quiet

theorem own (apart : Apart q tag s t) (does : TimedStep s e s') (mine : besides q e = false)
    (under : (s.slice q).isSome) (still : (s'.slice q).isSome) : Apart q tag s' t := by
  have slices : ∀ (slice : Option Slice) (network : SimpleNetwork n),
      ∀ p, p ≠ q → (s.turn q slice network).slice p = t.slice p := by
    intro slice network p mine
    rw [turn_slice, if_neg mine, apart.slices p mine]
  have here : ∀ (slice : Option Slice) (network : SimpleNetwork n),
      (s.turn q slice network).slice q = slice := by
    intro slice network
    rw [turn_slice, if_pos rfl]
  have missing : ∀ {slice : Slice}, s.slice q = some slice → slice.isPosted = false →
      ∃ source, headers tag (t.network.channel source q) =
        headers tag (s.network.channel source q) + 1 := by
    intro slice under unposted
    rcases apart.call with ⟨posted, -⟩ | ⟨-, missing⟩
    · cases under.symm.trans posted
      cases unposted
    · exact missing
  have left : ∀ {self : ProcessId n} {action : TimedAction n},
      besides q (self, action) = false → self = q := by
    intro self action mine
    simp only [besides, Bool.or_eq_false_iff, decide_eq_false_iff_not, not_not] at mine
    exact mine.1
  cases does with
  | @plain self action network' free does =>
    obtain rfl := left mine
    rcases free with sends | idle
    · simp [besides, sends] at mine
    · rw [idle] at under
      cases under
  | @post self tag' idle listening =>
    obtain rfl := left mine
    rw [idle] at under
    cases under
  | @matchHeader self source tag' network' posted does =>
    obtain rfl := left mine
    cases does with
    | @accept _ _ _ rawPacket rest listening found =>
      rcases apart.call with ⟨posted', equal⟩ | ⟨⟨slice, under', unposted⟩, -⟩
      · cases posted.symm.trans posted'
        refine ⟨apart.elsewhere.take source rest _, slices _ _, apart.listening, apart.idle,
          .inr ⟨⟨.matched, here _ _, rfl⟩, source, ?_⟩⟩
        rw [← equal source, headers_accept found]
        simp [TimedNetwork.turn, Network.goto, Network.leave]
      · cases posted.symm.trans under'
        cases unposted
  | @matchPayload self network' awaiting does =>
    obtain rfl := left mine
    obtain ⟨source, missing⟩ := missing awaiting rfl
    refine ⟨apart.elsewhere.read does, slices _ _, apart.listening, apart.idle,
      .inr ⟨⟨.filled, here _ _, rfl⟩, source, ?_⟩⟩
    change _ = headers tag (network'.channel source self) + 1
    rw [read_headers does, missing]
  | @await self source tag' rawPacket matched =>
    obtain rfl := left mine
    exact ⟨apart.elsewhere, slices _ _, apart.listening, apart.idle,
      .inr ⟨⟨.awaiting, here _ _, rfl⟩, missing matched rfl⟩⟩
  | @empty self | @done self | @expire self =>
    obtain rfl := left mine
    simp [TimedNetwork.turn, TimedNetwork.expire] at still

end Apart

theorem TimedStep.taken (does : TimedStep s e s') : timedStep s e = some s' := by
  cases does with
  | plain free does =>
    rcases free with sends | idle
    · simp only [timedStep, sends, Bool.true_or, if_true, does.taken, Option.map_some]
    · simp only [timedStep, idle, Option.isNone_none, Bool.or_true, if_true, does.taken,
        Option.map_some]
  | post idle listening => simp only [timedStep, idle, listening]
  | matchHeader posted does => simp only [timedStep, posted, does.taken, Option.map_some]
  | matchPayload awaiting does => simp only [timedStep, awaiting, does.taken, Option.map_some]
  | empty matched accepted nothing does =>
    simp only [timedStep, TimedNetwork.test, matched, accepted, nothing, if_true, does.taken,
      Option.map_some]
  | await matched accepted something =>
    simp only [timedStep, TimedNetwork.test, matched, accepted, something, if_false]
  | done filled => simp only [timedStep, TimedNetwork.test, filled]
  | expire under => simp only [timedStep, under]

/-- The run without the call, and how the networks differ while the call lasts. -/
theorem apart_call (run : TimedRun n (fun _ s e => calm s e = true) trace s)
    (idle : s.slice q = none) {s₁ : TimedNetwork n}
    (call : Execution timedStep (· = s) (duringCall q tag) later s₁)
    (under : (s₁.slice q).isSome = true) :
    ∃ without t, TimedRun n (fun _ s e => calm s e = true) (without ++ trace) t ∧
      without.map (·.2) = (later.map (·.2)).filter (besides q) ∧ Apart q tag s₁ t := by
  have both : later = [] ∧ s₁ = s ∨ later ≠ [] ∧ ((s₁.slice q).isSome = true →
      ∃ without t, TimedRun n (fun _ s e => calm s e = true) (without ++ trace) t ∧
        without.map (·.2) = (later.map (·.2)).filter (besides q) ∧ Apart q tag s₁ t) := by
    apply call.history_invariant (I := fun later s₁ =>
      later = [] ∧ s₁ = s ∨ later ≠ [] ∧ ((s₁.slice q).isSome = true →
        ∃ without t, TimedRun n (fun _ s e => calm s e = true) (without ++ trace) t ∧
          without.map (·.2) = (later.map (·.2)).filter (besides q) ∧ Apart q tag s₁ t))
    · rintro _ rfl
      exact .inl ⟨rfl, rfl⟩
    · intro later s₁ e s₂ _ before may taken
      obtain ⟨quiet, inside⟩ := Bool.and_eq_true_iff.1 may
      refine .inr ⟨List.cons_ne_nil _ _, fun under' => ?_⟩
      rcases before with ⟨rfl, rfl⟩ | ⟨started, before⟩
      · -- the call is made
        obtain rfl := calls_iff.1 inside
        cases timedStep_cases taken with
        | post idle listening =>
          exact ⟨[], s₁, run, by simp [besides], apart_post listening idle⟩
      · rw [if_neg (mt List.isEmpty_iff.1 started)] at inside
        obtain ⟨without, t, run', events, apart⟩ := before inside
        have does := timedStep_cases taken
        cases other : besides q e with
        | true =>
          obtain ⟨t', does', apart'⟩ := apart.others does other
          have next := run'.next (apart.keeps_calm other quiet) does'.taken
          refine ⟨(t, e) :: without, t', next, ?_, apart'⟩
          rw [List.map_cons, List.map_cons, List.filter_cons_of_pos other, events]
        | false =>
          refine ⟨without, t, run', ?_, apart.own does other inside under'⟩
          rw [List.map_cons, List.filter_cons_of_neg (by rw [other]; decide), events]
  rcases both with ⟨-, rfl⟩ | ⟨-, both⟩
  · rw [idle] at under
    cases under
  · exact both under

def receives (q : ProcessId n) (tag : Option MpiTag) (source : ProcessId n) :
    ℕ → List (TimedEvent n)
  | 0 => []
  | k + 1 => (q, .plain (.accept tag source)) :: (q, .plain .read) :: (q, .plain .update) ::
      (q, .plain .finish) :: receives q tag source k

theorem isSome_outcome_cons (rest : List (TimedEvent n)) :
    (outcome s (e :: rest)).isSome = true ↔
      ∃ s', timedStep s e = some s' ∧ (outcome s' rest).isSome = true := by
  rw [outcome]
  cases taken : timedStep s e with
  | none => simp
  | some s' => simp

theorem receives_few (k : ℕ) (possible : (outcome s (receives q tag source k)).isSome = true) :
    k ≤ headers tag (s.network.channel source q) := by
  induction k generalizing s with
  | zero => exact Nat.zero_le _
  | succ k ih =>
    simp only [receives, isSome_outcome_cons] at possible
    obtain ⟨s₁, accepts, s₂, reads, s₃, updates, s₄, finishes, possible⟩ := possible
    have rest := ih possible
    cases timedStep_cases accepts with
    | plain free does =>
      cases does with
      | @accept _ _ _ rawPacket left listening found =>
        cases timedStep_cases reads with
        | @plain _ _ network _ reading =>
          cases timedStep_cases updates with
          | plain _ updating =>
            cases updating with
            | update =>
              cases timedStep_cases finishes with
              | plain _ finishing =>
                cases finishing with
                | finish =>
                  change k ≤ headers tag (network.channel source q) at rest
                  rw [read_headers reading] at rest
                  rw [headers_accept found]
                  simpa [Network.goto, Network.leave] using rest

section
variable {limit : ℕ} {a a' : LetterNetwork n limit}

theorem plain_step (small : limit ≤ UInt32.size) (idle : s.slice q = none)
    (refines : Refines simpleFormat LetterThread.simple s.network a) {action : Action n}
    (may : within limit (q, action) = true) (taken : letterStep a (q, action) = some a') :
    ∃ s', timedStep s (q, .plain action) = some s' ∧ s'.slice q = none ∧
      Refines simpleFormat LetterThread.simple s'.network a' := by
  have matched := simple_step small refines may
  rw [taken] at matched
  cases does : simpleStep s.network (q, action) with
  | none =>
    rw [does] at matched
    cases matched
  | some network =>
    rw [does] at matched
    cases matched with
    | some refines' =>
      exact ⟨_, (TimedStep.plain (.inr idle) (simpleStep_cases does)).taken, idle, refines'⟩

theorem letterStep_read {letter : Letter limit} (here : a.thread q = .accepted tag source letter) :
    letterStep a (q, .read) = some (a.goto q (.read source letter)) := by
  simp only [letterStep, here]

theorem letterStep_update {letter : Letter limit} (here : a.thread q = .read source letter) :
    letterStep a (q, .update) =
      some ((a.updateClock q letter.lamportTime).goto q (.updated source letter)) := by
  simp only [letterStep, here]

theorem letterStep_finish {letter : Letter limit} (here : a.thread q = .updated source letter) :
    letterStep a (q, .finish) = some (a.goto q .listening) := by
  simp only [letterStep, here]

theorem count_taken {letters rest : List (MpiTag × Letter limit)} {letter : Letter limit}
    (found : firstTagged tag letters = some (letter, rest)) :
    (letters.countP fun letter => tag.all (· = letter.1)) =
      (rest.countP fun letter => tag.all (· = letter.1)) + 1 := by
  obtain ⟨before, tag', after, rfl, rfl, -, suits⟩ := firstTagged_some found
  rw [List.countP_append, List.countP_append, List.countP_cons, suits]
  rfl

theorem receives_enough (small : limit ≤ UInt32.size) (k : ℕ) (idle : s.slice q = none)
    (refines : Refines simpleFormat LetterThread.simple s.network a)
    (listening : a.thread q = .listening)
    (many : k ≤ (a.channel source q).countP fun letter => tag.all (· = letter.1)) :
    (outcome s (receives q tag source k)).isSome = true := by
  induction k generalizing s a with
  | zero => rfl
  | succ k ih =>
    simp only [receives, isSome_outcome_cons]
    cases found : firstTagged tag (a.channel source q) with
    | none =>
      have nothing : (a.channel source q).countP (fun letter => tag.all (· = letter.1)) = 0 :=
        List.countP_eq_zero.2 fun letter member => by simp [firstTagged_none found letter member]
      omega
    | some both =>
      have accepts : letterStep a (q, .accept tag source) =
          some ((a.leave source q both.2).goto q (.accepted tag source both.1)) := by
        simp only [letterStep, listening, found, Option.map_some]
      obtain ⟨s₁, taken₁, idle₁, refines₁⟩ := plain_step small idle refines rfl accepts
      obtain ⟨s₂, taken₂, idle₂, refines₂⟩ :=
        plain_step small idle₁ refines₁ rfl (letterStep_read (Network.goto_self ..))
      obtain ⟨s₃, taken₃, idle₃, refines₃⟩ :=
        plain_step small idle₂ refines₂ rfl (letterStep_update (Network.goto_self ..))
      obtain ⟨s₄, taken₄, idle₄, refines₄⟩ :=
        plain_step small idle₃ refines₃ rfl (letterStep_finish (Network.goto_self ..))
      refine ⟨s₁, taken₁, s₂, taken₂, s₃, taken₃, s₄, taken₄, ih idle₄ refines₄ ?_ ?_⟩
      · exact Network.goto_self ..
      · have fewer : k ≤ both.2.countP fun letter => tag.all (· = letter.1) := by
          rw [count_taken found] at many
          omega
        simpa [Network.goto, Network.updateClock, Network.leave] using fewer

theorem headers_frames (tag : Option MpiTag) (letters : List (MpiTag × Letter limit)) :
    headers tag (letters.flatMap simpleFormat.frame) =
      letters.countP fun letter => tag.all (· = letter.1) := by
  induction letters with
  | nil => rfl
  | cons letter rest ih =>
    rw [List.flatMap_cons, headers_append, ih, List.countP_cons, Nat.add_comm]
    congr 1
    cases suits : tag.all (· = letter.1) <;> by_cases nothing : letter.2.message = [] <;>
      simp [headers, simpleFormat, simpleMessages, nothing, SimpleContent.isHeader, suits]

end

theorem Apart.same (apart : Apart q tag s t) (posted : s.slice q = some (.posted tag)) :
    s.expire q = t := by
  have channels : s.network.channel = t.network.channel := by
    funext source p
    by_cases mine : p = q
    · rcases apart.call with ⟨-, equal⟩ | ⟨⟨slice, under, unposted⟩, -⟩
      · exact mine ▸ equal source
      · cases posted.symm.trans under
        cases unposted
    · exact apart.elsewhere.channel source p mine
  have threads : Function.update s.network.thread q .listening = t.network.thread := by
    funext p
    by_cases mine : p = q
    · rw [mine, Function.update_self, apart.listening]
    · rw [Function.update_of_ne mine, apart.elsewhere.thread p mine]
  have slices : Function.update s.slice q none = t.slice := by
    funext p
    by_cases mine : p = q
    · rw [mine, Function.update_self, apart.idle]
    · rw [Function.update_of_ne mine, apart.slices p mine]
  have clocks := apart.elsewhere.clock
  obtain ⟨⟨clock, thread, channel⟩, slice⟩ := t
  simp only [TimedNetwork.expire, TimedNetwork.turn, Network.goto, channels, threads, slices, clocks]

theorem Apart.differ (run : TimedRun n (fun _ s e => calm s e = true) trace t)
    (apart : Apart q tag s t) {slice : Slice} (under : s.slice q = some slice)
    (unposted : slice.isPosted = false) : ¬AsIf (s.expire q) t := by
  intro asIf
  obtain ⟨source, missing⟩ : ∃ source, headers tag (t.network.channel source q) =
      headers tag (s.network.channel source q) + 1 := by
    rcases apart.call with ⟨posted, -⟩ | ⟨-, missing⟩
    · cases under.symm.trans posted
      cases unposted
    · exact missing
  have small : mpiCountLimit ≤ UInt32.size := by decide
  obtain ⟨plain, run'⟩ := simpleRun_of_calm run
  obtain ⟨a, tally⟩ := tally_run small run'
  have thread := tally.refines.thread q
  rw [apart.listening] at thread
  have listening : a.thread q = .listening := by
    cases here : a.thread q with
    | listening => rfl
    | accepted | read | updated =>
      rw [here] at thread
      cases thread
  have shows : Shows simpleFormat none (a.channel source q) (t.network.channel source q) :=
    tally.refines.channel_listening listening
  have count : headers tag (t.network.channel source q) =
      (a.channel source q).countP fun letter => tag.all (· = letter.1) := by
    generalize t.network.channel source q = messages at shows
    cases shows
    exact headers_frames tag _
  have possible := receives_enough small _ apart.idle tally.refines listening count.le
  rw [← asIf] at possible
  have few := receives_few _ possible
  change headers tag (t.network.channel source q) ≤ headers tag (s.network.channel source q) at few
  omega

/-- A receive whose time is up has lost nothing just when no header has been received for it. -/
theorem timed_out_iff (run : TimedRun n (fun _ s e => calm s e = true) trace s)
    (idle : s.slice q = none) {s₁ : TimedNetwork n}
    (call : Execution timedStep (· = s) (duringCall q tag) later s₁)
    (expires : timedStep s₁ (q, .expire) = some s') :
    ∃ without t plain, TimedRun n (fun _ s e => calm s e = true) (without ++ trace) t ∧
      without.map (·.2) = (later.map (·.2)).filter (besides q) ∧
      SimpleRun n (fun _ _ e => within mpiCountLimit e = true) plain t.network ∧
      (AsIf s' t ↔ s₁.slice q = some (.posted tag)) := by
  cases timedStep_cases expires with
  | @expire _ slice under =>
    obtain ⟨without, t, run', events, apart⟩ :=
      apart_call run idle call (Option.isSome_iff_exists.2 ⟨slice, under⟩)
    obtain ⟨plain, run''⟩ := simpleRun_of_calm run'
    refine ⟨without, t, plain, run', events, run'', ?_⟩
    constructor
    · intro asIf
      by_contra other
      have unposted : slice.isPosted = false := by
        rcases apart.call with ⟨posted, -⟩ | ⟨⟨slice', under', unposted⟩, -⟩
        · exact absurd posted other
        · cases under.symm.trans under'
          exact unposted
      exact apart.differ run' under unposted asIf
    · intro posted
      rw [apart.same posted]
      exact fun _ => rfl

theorem timed_out_two : ∃ later s₁ s' without t,
    Execution timedStep (· = timedStart 2) (duringCall 1 none) later s₁ ∧
      timedStep s₁ (1, .expire) = some s' ∧
      TimedRun 2 (fun _ s e => calm s e = true) without t ∧
      without.map (·.2) = (later.map (·.2)).filter (besides 1) ∧
      outcome t (receives 1 none 0 1) = some [⟨1, 0, 4, [9]⟩] ∧ AsIf s' t := by
  obtain ⟨later, s₁, call, reached⟩ := exists_execution timedStep (timedStart 2)
    (duringCall 1 none) [(1, .post none), (0, .plain (.send 4 [9] {1} 5))]
    (fun _ s₁ => ((timedStep s₁ (1, .expire)).any fun s' =>
        outcome s' (receives 1 none 0 1) = some [⟨1, 0, 4, [9]⟩]) ∧
      s₁.slice 1 = some (.posted none))
    (by decide +kernel)
  obtain ⟨expires, posted⟩ := of_decide_eq_true reached
  obtain ⟨s', expires, returned⟩ := (Option.any_eq_true ..).1 expires
  obtain ⟨without, t, plain, run, events, -, asIf⟩ :=
    timed_out_iff (.start rfl) rfl call expires
  rw [List.append_nil] at run
  have same : AsIf s' t := asIf.2 posted
  exact ⟨later, s₁, s', without, t, call, expires, run, events,
    same _ ▸ of_decide_eq_true returned, same⟩

/-- The time is up between the header and the payload, and the next receive takes the payload
for a header. -/
theorem timed_out_loses_two : ¬∀ later s₁ s' without t,
    Execution timedStep (· = timedStart 2) (duringCall 1 none) later s₁ →
    timedStep s₁ (1, .expire) = some s' →
    TimedRun 2 (fun _ s e => calm s e = true) without t →
    without.map (·.2) = (later.map (·.2)).filter (besides 1) → AsIf s' t := by
  intro nothing
  obtain ⟨later, s₁, call, reached⟩ := exists_execution timedStep (timedStart 2)
    (duringCall 1 none)
    [(1, .post none), (0, .plain (.send 4 [9] {1} 5)), (1, .matchHeader 0), (1, .test)]
    (fun _ s₁ => (timedStep s₁ (1, .expire)).isSome ∧ s₁.slice 1 = some .awaiting)
    (by decide +kernel)
  obtain ⟨expires, awaiting⟩ := of_decide_eq_true reached
  obtain ⟨s', expires⟩ := Option.isSome_iff_exists.1 expires
  obtain ⟨without, t, run, events, apart⟩ :=
    apart_call (.start rfl) rfl call (Option.isSome_iff_exists.2 ⟨_, awaiting⟩)
  rw [List.append_nil] at run
  exact apart.differ run awaiting rfl (by
    cases timedStep_cases expires
    exact nothing later s₁ _ without t call expires run events)

end DistributedMonitor.Wire
