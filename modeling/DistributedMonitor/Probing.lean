import DistributedMonitor.Replacement
import DistributedMonitor.Timeout

/-! The receive of the optimized communicator with a timeout. Until it has found a message it only
probes for one, so nothing is lost with a call whose time is up. -/

namespace DistributedMonitor.Wire
open Library

variable {n limit : ℕ} {a a' : LetterNetwork n limit} {e : Event n} {p q self source : ProcessId n}

abbrev OptimizedRun (n : ℕ) (contract : Permission (OptimizedNetwork n) (Event n)) :
    Trace (OptimizedNetwork n) (Event n) → OptimizedNetwork n → Prop :=
  Execution optimizedStep (· = optimizedStart n) contract

def Packet.content (packet : Packet n) : UInt8 × ByteString := (packet.messageType, packet.message)

namespace Packed

variable {trace : Trace (OptimizedNetwork n) (Event n)} {s s' : OptimizedNetwork n}

def sentBy (p q : ProcessId n) (tag : MpiTag) (_ : OptimizedNetwork n) (e : Event n) :
    List (UInt8 × ByteString) :=
  match e.2 with
  | .send messageType message recipients tag' =>
      if e.1 = p ∧ q ∈ recipients ∧ tag' = tag then [(messageType, message)] else []
  | _ => []

def sentOn (p q : ProcessId n) (tag : MpiTag) (trace : Trace (OptimizedNetwork n) (Event n)) :
    List (UInt8 × ByteString) :=
  chronicle (sentBy p q tag) trace

def handTag (q : ProcessId n) : Trace (OptimizedNetwork n) (Event n) → Option MpiTag
  | [] => none
  | (s, self, .accept tag source) :: earlier =>
      if self = q then matchedTag tag (s.channel source q) else handTag q earlier
  | _ :: earlier => handTag q earlier

def returnedBy (p q : ProcessId n) (tag : MpiTag) (earlier : Trace (OptimizedNetwork n) (Event n))
    (s : OptimizedNetwork n) (e : Event n) : List (UInt8 × ByteString) :=
  match optimizedReturned s e with
  | some packet =>
      if e.1 = q ∧ packet.source = p ∧ handTag q earlier = some tag then [packet.content] else []
  | none => []

def returnedOn (p q : ProcessId n) (tag : MpiTag) :
    Trace (OptimizedNetwork n) (Event n) → List (UInt8 × ByteString)
  | [] => []
  | (s, e) :: earlier => returnedOn p q tag earlier ++ returnedBy p q tag earlier s e

end Packed

/-- What one process has sent to another under a tag is returned once and in order, no receive
fails, and what is not returned is still there. -/
structure Packed (trace : Trace (OptimizedNetwork n) (Event n)) (s : OptimizedNetwork n) : Prop where
  inOrder : ∀ p q tag, Packed.returnedOn p q tag trace <+: Packed.sentOn p q tag trace
  /-- No return is missing from these lists. -/
  accounted : ∀ later earlier s₀ q packet, trace = later ++ (s₀, q, .finish) :: earlier →
    optimizedReturned s₀ (q, .finish) = some packet → ∃ tag, Packed.handTag q earlier = some tag ∧
      packet.content ∈ Packed.sentOn packet.source q tag earlier
  /-- A receive that has found a message comes to its end. -/
  goesOn : ∀ q, s.thread q = .listening ∨
    ∃ action, action.sends = false ∧ (optimizedStep s (q, action)).isSome = true
  complete : ∀ p q tag, s.thread q = .listening → (∀ message ∈ s.channel p q, message.1 ≠ tag) →
    Packed.returnedOn p q tag trace = Packed.sentOn p q tag trace

def heldAfter (q : ProcessId n) (held : Option MpiTag) (a : LetterNetwork n limit) (e : Event n) :
    Option MpiTag :=
  match e.2 with
  | .accept tag source => if e.1 = q then matchedTag tag (a.channel source q) else held
  | _ => held

def handedOver (p q : ProcessId n) (tag : MpiTag) (held : Option MpiTag) (a : LetterNetwork n limit)
    (e : Event n) : List (Packet n) :=
  match e.2 with
  | .finish => if e.1 = q then (a.thread q).handOn p tag held else []
  | _ => []

def outstanding (p q : ProcessId n) (tag : MpiTag) (held : Option MpiTag) (a : LetterNetwork n limit) :
    List (Packet n) :=
  (a.thread q).handOn p tag held ++ waitingOn p q tag a

theorem outstanding_goto {held : Option MpiTag} {tag : MpiTag} {thread : LetterThread n limit}
    (hands : q = self → thread.handOn p tag held = (a.thread self).handOn p tag held) :
    outstanding p q tag held (a.goto self thread) = outstanding p q tag held a := by
  rw [outstanding, Network.goto_thread, waitingOn_goto, outstanding]
  split_ifs with mine
  · rw [hands mine, mine]
  · rfl

theorem letter_balance (taken : letterStep a e = some a') (p q : ProcessId n) (tag : MpiTag)
    (held : Option MpiTag) (s : OptimizedNetwork n) :
    (outstanding p q tag held a).map Packet.content ++ Packed.sentBy p q tag s e =
      (handedOver p q tag held a e ++ outstanding p q tag (heldAfter q held a e) a').map
        Packet.content := by
  obtain ⟨self, action⟩ := e
  cases action with
  | send messageType message recipients tag' =>
    simp only [letterStep] at taken
    split_ifs at taken with fits
    cases taken
    let silent : SimpleNetwork n := ⟨a.currentLamportTime, fun _ => .listening, fun _ _ => []⟩
    have waits : waitingOn p q tag (a.send self recipients fun lamportTime =>
        [(tag', ⟨lamportTime, messageType, message, fits⟩)]) = waitingOn p q tag a ++
          sentBy p q tag silent (self, .send messageType message recipients tag') :=
      waitingOn_send messageType message recipients tag' fits p q tag rfl
    have sent : (sentBy p q tag silent (self, .send messageType message recipients tag')).map
        Packet.content = Packed.sentBy p q tag s (self, .send messageType message recipients tag') := by
      simp only [sentBy, Packed.sentBy]
      split_ifs <;> rfl
    simp only [handedOver, heldAfter, outstanding, List.nil_append]
    rw [waits, ← sent, List.map_append, List.map_append, List.map_append, List.append_assoc]
    rfl
  | accept tag' source =>
    cases here : a.thread self with
    | accepted | read | updated =>
      simp only [letterStep, here] at taken
      cases taken
    | listening =>
      simp only [letterStep, here] at taken
      obtain ⟨both, found, rfl⟩ := Option.map_eq_some_iff.1 taken
      simp only [handedOver, heldAfter, Packed.sentBy, List.nil_append, List.append_nil]
      congr 1
      by_cases mine : q = self
      · subst mine
        rw [outstanding, here, waitingOn_accept found, if_pos rfl, if_pos rfl, outstanding,
          Network.goto_self, waitingOn_goto]
        rfl
      · rw [outstanding_goto fun same => absurd same mine, if_neg (Ne.symm mine), outstanding,
          waitingOn_accept found, if_neg mine, List.nil_append]
        rfl
  | read =>
    cases here : a.thread self with
    | listening | read | updated =>
      simp only [letterStep, here] at taken
      cases taken
    | accepted tag' source letter =>
      simp only [letterStep, here] at taken
      cases taken
      simp only [handedOver, heldAfter, Packed.sentBy, List.nil_append, List.append_nil]
      rw [outstanding_goto fun _ => by rw [here]; rfl]
  | update =>
    cases here : a.thread self with
    | listening | accepted | updated =>
      simp only [letterStep, here] at taken
      cases taken
    | read source letter =>
      simp only [letterStep, here] at taken
      cases taken
      simp only [handedOver, heldAfter, Packed.sentBy, List.nil_append, List.append_nil]
      have hands : (LetterThread.updated source letter).handOn p tag held =
          ((a.updateClock self letter.lamportTime).thread self).handOn p tag held := by
        change _ = (a.thread self).handOn p tag held
        rw [here]
        rfl
      rw [outstanding_goto fun _ => hands]
      rfl
  | finish =>
    cases here : a.thread self with
    | listening | accepted | read =>
      simp only [letterStep, here] at taken
      cases taken
    | updated source letter =>
      simp only [letterStep, here] at taken
      cases taken
      simp only [handedOver, heldAfter, Packed.sentBy, List.append_nil]
      by_cases mine : q = self
      · subst mine
        rw [if_pos rfl, outstanding, outstanding, Network.goto_self, waitingOn_goto]
        rfl
      · rw [if_neg (Ne.symm mine), outstanding_goto fun same => absurd same mine]
        rfl

theorem optimized_matchedTag (tag : Option MpiTag) (letters : List (MpiTag × Letter limit)) :
    matchedTag tag (letters.flatMap optimizedFormat.frame) = matchedTag tag letters := by
  unfold matchedTag
  induction letters with
  | nil => rfl
  | cons letter rest ih =>
    have framed : optimizedFormat.frame letter =
        [(letter.1, encode letter.2.lamportTime letter.2.messageType letter.2.message)] := rfl
    rw [List.flatMap_cons, framed, List.singleton_append, List.find?_cons, List.find?_cons]
    cases suits : tag.all (· = letter.1) with
    | true => rfl
    | false => exact ih

theorem Refines.nothing_waits {Content Thread : Type} {format : Format limit Content}
    {shown : LetterThread n limit → Thread} {s : Network n Content Thread} {tag : MpiTag}
    (refines : Refines format shown s a) (here : a.thread q = .listening)
    (frames : ∀ letter, format.frame letter ≠ [])
    (nothing : ∀ message ∈ s.channel p q, message.1 ≠ tag) : waitingOn p q tag a = [] := by
  apply List.map_eq_nil_iff.2
  apply List.filter_eq_nil_iff.2
  intro letter member same
  cases letters : firstTagged (some tag) (a.channel p q) with
  | none =>
    have skip := firstTagged_none letters letter member
    simp [of_decide_eq_true same] at skip
  | some both =>
    obtain ⟨before, after, tag', -, suits, messages, -⟩ := refines.accept here letters
    obtain ⟨message, framed⟩ := List.exists_mem_of_ne_nil _ (frames (tag', both.1))
    have own : tag = tag' := of_decide_eq_true suits
    apply nothing message _ ((format.tagged _ message framed).trans own.symm)
    rw [messages]
    exact List.mem_append_right _ (List.mem_append_left _ framed)

namespace Packed

variable {trace : Trace (OptimizedNetwork n) (Event n)} {s s' : OptimizedNetwork n}

structure Account (trace : Trace (OptimizedNetwork n) (Event n)) (s : OptimizedNetwork n)
    (a : LetterNetwork n limit) : Prop where
  refines : Refines optimizedFormat LetterThread.optimized s a
  account : ∀ p q tag, sentOn p q tag trace = returnedOn p q tag trace ++
    (outstanding p q tag (handTag q trace) a).map Packet.content
  held : ∀ q, a.thread q = .listening ∨ (handTag q trace).isSome

theorem held_after {held : Option MpiTag} (taken : letterStep a e = some a')
    (before : a.thread q = .listening ∨ held.isSome) :
    a'.thread q = .listening ∨ (heldAfter q held a e).isSome := by
  obtain ⟨self, action⟩ := e
  cases action with
  | send messageType message recipients tag =>
    simp only [letterStep] at taken
    split_ifs at taken
    cases taken
    exact before
  | accept tag source =>
    cases here : a.thread self with
    | accepted | read | updated =>
      simp only [letterStep, here] at taken
      cases taken
    | listening =>
      simp only [letterStep, here] at taken
      obtain ⟨both, found, rfl⟩ := Option.map_eq_some_iff.1 taken
      simp only [heldAfter, Network.goto_thread]
      by_cases mine : q = self
      · subst mine
        obtain ⟨front, tag', after, channel, -, skips, suits⟩ := firstTagged_some found
        rw [if_pos rfl, if_pos rfl, channel, matchedTag_here skips suits]
        exact .inr rfl
      · rw [if_neg mine, if_neg (Ne.symm mine)]
        exact before
  | read | update | finish =>
    cases here : a.thread self <;> simp only [letterStep, here] at taken <;> cases taken
    rw [Network.goto_thread]
    split_ifs with mine
    · subst mine
      exact .inr (before.resolve_left (by rw [here]; simp))
    · exact before

theorem handTag_cons (account : Account trace s a) (taken : letterStep a e = some a')
    (q : ProcessId n) : handTag q ((s, e) :: trace) = heldAfter q (handTag q trace) a e := by
  obtain ⟨self, action⟩ := e
  cases action with
  | accept tag source =>
    by_cases mine : self = q
    · subst mine
      simp only [handTag, heldAfter, if_true]
      cases here : a.thread self with
      | listening =>
        have closed : Shows optimizedFormat none (a.channel source self) (s.channel source self) :=
          account.refines.channel_listening here
        generalize s.channel source self = messages at closed
        cases closed
        exact optimized_matchedTag tag _
      | accepted | read | updated =>
        simp only [letterStep, here] at taken
        cases taken
    · simp only [handTag, heldAfter, mine, if_false]
  | send | read | update | finish => rfl

theorem returnedBy_letter (account : Account trace s a) (taken : letterStep a e = some a')
    (p q : ProcessId n) (tag : MpiTag) : returnedBy p q tag trace s e =
      (handedOver p q tag (handTag q trace) a e).map Packet.content := by
  obtain ⟨self, action⟩ := e
  have thread := account.refines.thread self
  cases action with
  | finish =>
    cases here : a.thread self with
    | updated source letter =>
      rw [here] at thread
      simp only [returnedBy, optimizedReturned, thread, LetterThread.optimized, handedOver]
      by_cases mine : self = q
      · subst mine
        rw [if_pos rfl, here, LetterThread.handOn]
        by_cases own : source = p ∧ handTag self trace = some tag
        · rw [if_pos own, if_pos ⟨rfl, own⟩]
          rfl
        · rw [if_neg own, if_neg fun both => own both.2]
          rfl
      · rw [if_neg mine, if_neg fun both => mine both.1]
        rfl
    | listening | accepted | read =>
      simp only [letterStep, here] at taken
      cases taken
  | send | accept | read | update => rfl

theorem Account.step (account : Account trace s a) (may : within limit e = true)
    (taken : optimizedStep s e = some s') :
    ∃ a' : LetterNetwork n limit, Account ((s, e) :: trace) s' a' := by
  have matched := optimized_step account.refines may
  rw [taken] at matched
  cases letters : letterStep a e with
  | none =>
    rw [letters] at matched
    cases matched
  | some a' =>
    rw [letters] at matched
    cases matched with
    | some refines =>
      refine ⟨a', refines, fun p q tag => ?_, fun q => ?_⟩
      · have before := account.account p q tag
        rw [sentOn] at before
        rw [sentOn, chronicle, before, List.append_assoc, letter_balance letters,
          ← handTag_cons account letters, returnedOn, returnedBy_letter account letters,
          List.map_append, List.append_assoc]
      · rw [handTag_cons account letters]
        exact held_after letters (account.held q)

theorem account_start : Account [] (optimizedStart n)
    (⟨fun _ => 0, fun _ => .listening, fun _ _ => []⟩ : LetterNetwork n limit) where
  refines := ⟨rfl, fun _ => rfl, fun _ _ => .closed []⟩
  account _ _ _ := rfl
  held _ := .inl rfl

theorem account_run (run : OptimizedRun n (fun _ _ e => within limit e = true) trace s) :
    ∃ a : LetterNetwork n limit, Account trace s a := by
  apply run.history_invariant (I := fun trace s => ∃ a : LetterNetwork n limit, Account trace s a)
  · rintro _ rfl
    exact ⟨_, account_start⟩
  · rintro trace s e s' _ ⟨a, account⟩ may taken
    exact account.step may taken

namespace Account

theorem accounted (account : Account trace s a) {packet : Packet n}
    (returns : optimizedReturned s (q, .finish) = some packet) :
    ∃ tag, handTag q trace = some tag ∧ packet.content ∈ sentOn packet.source q tag trace := by
  have thread := account.refines.thread q
  cases here : a.thread q with
  | updated source letter =>
    rw [here] at thread
    obtain ⟨tag, held⟩ :=
      Option.isSome_iff_exists.1 ((account.held q).resolve_left (by rw [here]; simp))
    simp only [optimizedReturned, thread, LetterThread.optimized, Option.some.injEq] at returns
    subst returns
    refine ⟨tag, held, ?_⟩
    rw [account.account, held]
    simp [outstanding, here, LetterThread.handOn, Letter.packet, Packet.content]
  | listening | accepted | read =>
    rw [here] at thread
    simp only [optimizedReturned, thread, LetterThread.optimized] at returns
    cases returns

theorem goesOn (account : Account trace s a) (q : ProcessId n) : s.thread q = .listening ∨
    ∃ action, action.sends = false ∧ (optimizedStep s (q, action)).isSome = true := by
  have thread := account.refines.thread q
  have goes : ∀ action : Action n, action.sends = false → (letterStep a (q, action)).isSome = true →
      ∃ action, action.sends = false ∧ (optimizedStep s (q, action)).isSome = true := by
    intro action receives does
    have may : within limit (q, action) = true := by
      cases action with
      | send => cases receives
      | accept | read | update | finish => rfl
    exact ⟨action, receives, (isSome_of_rel (optimized_step account.refines may)).trans does⟩
  cases here : a.thread q with
  | listening =>
    rw [here] at thread
    exact .inl thread
  | accepted => exact .inr (goes .read rfl (by simp only [letterStep, here, Option.isSome_some]))
  | read => exact .inr (goes .update rfl (by simp only [letterStep, here, Option.isSome_some]))
  | updated => exact .inr (goes .finish rfl (by simp only [letterStep, here, Option.isSome_some]))

theorem complete (account : Account trace s a) {tag : MpiTag} (listening : s.thread q = .listening)
    (nothing : ∀ message ∈ s.channel p q, message.1 ≠ tag) :
    returnedOn p q tag trace = sentOn p q tag trace := by
  have thread := account.refines.thread q
  rw [listening] at thread
  cases here : a.thread q with
  | listening =>
    have waiting : waitingOn p q tag a = [] :=
      account.refines.nothing_waits here (fun letter => List.cons_ne_nil _ _) nothing
    rw [account.account, outstanding, here, waiting]
    exact (List.append_nil _).symm
  | accepted | read | updated =>
    rw [here] at thread
    cases thread

end Account

end Packed

theorem packed_run {trace : Trace (OptimizedNetwork n) (Event n)} {s : OptimizedNetwork n}
    (run : OptimizedRun n (fun _ _ e => within limit e = true) trace s) : Packed trace s := by
  obtain ⟨a, account⟩ := Packed.account_run run
  refine ⟨fun p q tag => ?_, ?_, account.goesOn, fun p q tag => account.complete⟩
  · rw [account.account]
    exact List.prefix_append ..
  · rintro later earlier s₀ q packet rfl returns
    obtain ⟨a₀, account₀⟩ := Packed.account_run run.earlier
    exact account₀.accounted returns

/-- The tag that a receive with a timeout probes for. -/
structure ProbingNetwork (n : ℕ) where
  network : OptimizedNetwork n
  probing : ProcessId n → Option (Option MpiTag)

inductive ProbingAction (n : ℕ) where
  | plain (action : Action n)
  | call (tag : Option MpiTag)
  /-- `MPI_Iprobe` has set `hasReceivedData`. -/
  | found (source : ProcessId n)
  | expire

abbrev ProbingEvent (n : ℕ) := ProcessId n × ProbingAction n

/-- A message may be on its way and not have been probed when the time is up. -/
def probingStep (s : ProbingNetwork n) (e : ProbingEvent n) : Option (ProbingNetwork n) :=
  match e.2, s.probing e.1 with
  | .plain action, probing =>
      if action.sends || probing.isNone then
        (optimizedStep s.network (e.1, action)).map fun network => { s with network := network }
      else none
  | .call tag, none =>
      match s.network.thread e.1 with
      | .listening => some ⟨s.network, Function.update s.probing e.1 (some tag)⟩
      | _ => none
  | .found source, some tag =>
      (optimizedStep s.network (e.1, .accept tag source)).map fun network =>
        ⟨network, Function.update s.probing e.1 none⟩
  | .expire, some _ => some ⟨s.network, Function.update s.probing e.1 none⟩
  | _, _ => none

def probingStart (n : ℕ) : ProbingNetwork n := ⟨optimizedStart n, fun _ => none⟩

abbrev ProbingRun (n : ℕ) (contract : Permission (ProbingNetwork n) (ProbingEvent n)) :
    Trace (ProbingNetwork n) (ProbingEvent n) → ProbingNetwork n → Prop :=
  Execution probingStep (· = probingStart n) contract

def packable (e : ProbingEvent n) : Bool :=
  match e.2 with
  | .plain action => within packedLimit (e.1, action)
  | _ => true

def ProbingNetwork.act (s : ProbingNetwork n) (e : ProbingEvent n) :
    Option (OptimizedNetwork n × Event n) :=
  match e.2, s.probing e.1 with
  | .plain action, _ => some (s.network, e.1, action)
  | .found source, some tag => some (s.network, e.1, .accept tag source)
  | _, _ => none

/-- The run without the calls whose time is up. -/
def withoutTimeouts (trace : Trace (ProbingNetwork n) (ProbingEvent n)) :
    Trace (OptimizedNetwork n) (Event n) :=
  recorded ProbingNetwork.act trace

variable {trace : Trace (ProbingNetwork n) (ProbingEvent n)} {s s' : ProbingNetwork n}
  {e : ProbingEvent n} {tag : Option MpiTag}

theorem probingStep_cases (taken : probingStep s e = some s') :
    (∃ event, s.act e = some (s.network, event) ∧ optimizedStep s.network event = some s'.network ∧
      (packable e = true → within packedLimit event = true)) ∨
    s.act e = none ∧ s'.network = s.network := by
  obtain ⟨self, action⟩ := e
  unfold probingStep at taken
  split at taken
  next action' acts =>
    obtain rfl : action = _ := acts
    split_ifs at taken
    obtain ⟨network, does, rfl⟩ := Option.map_eq_some_iff.1 taken
    exact .inl ⟨_, rfl, does, id⟩
  next tag acts idle =>
    obtain rfl : action = _ := acts
    split at taken
    next =>
      cases taken
      exact .inr ⟨rfl, rfl⟩
    next => cases taken
  next source tag acts probes =>
    obtain rfl : action = _ := acts
    obtain ⟨network, does, rfl⟩ := Option.map_eq_some_iff.1 taken
    exact .inl ⟨_, by simp only [ProbingNetwork.act, probes], does, fun _ => rfl⟩
  next tag acts probes =>
    obtain rfl : action = _ := acts
    cases taken
    exact .inr ⟨rfl, rfl⟩
  next => cases taken

theorem withoutTimeouts_run (run : ProbingRun n (fun _ _ e => packable e = true) trace s) :
    OptimizedRun n (fun _ _ e => within packedLimit e = true) (withoutTimeouts trace) s.network := by
  refine run.refines ProbingNetwork.network ProbingNetwork.act (fun _ begins => by rw [begins]; rfl) ?_
  intro trace s e s' _ may taken
  rcases probingStep_cases taken with ⟨event, acts, does, fits⟩ | idle
  · exact .inr ⟨event, acts, fits may, does⟩
  · exact .inl idle

theorem optimizedStep_other {network network' : OptimizedNetwork n} {e : Event n}
    (does : optimizedStep network e = some network') (other : p ≠ e.1 ∨ e.2.sends = true) :
    network'.thread p = network.thread p := by
  obtain ⟨self, action⟩ := e
  unfold optimizedStep at does
  split at does
  next messageType message recipients tag =>
    cases does
    rfl
  next tag source acts _ =>
    obtain rfl : action = _ := acts
    obtain ⟨found, -, rfl⟩ := Option.map_eq_some_iff.1 does
    exact Function.update_of_ne (other.resolve_right Bool.false_ne_true) ..
  next tag source messageLength acts _ =>
    obtain rfl : action = _ := acts
    obtain ⟨found, -, does⟩ := Option.bind_eq_some_iff.1 does
    obtain ⟨message, -, does⟩ := Option.bind_eq_some_iff.1 does
    obtain ⟨packet, -, does⟩ := Option.bind_eq_some_iff.1 does
    cases does
    exact Function.update_of_ne (other.resolve_right Bool.false_ne_true) ..
  next packet acts _ =>
    obtain rfl : action = _ := acts
    cases does
    exact Function.update_of_ne (other.resolve_right Bool.false_ne_true) ..
  next packet acts _ =>
    obtain rfl : action = _ := acts
    cases does
    exact Function.update_of_ne (other.resolve_right Bool.false_ne_true) ..
  next => cases does

theorem probing_listening {contract : Permission (ProbingNetwork n) (ProbingEvent n)}
    (run : ProbingRun n contract trace s) :
    ∀ q tag, s.probing q = some tag → s.network.thread q = .listening := by
  apply run.invariant (I := fun s => ∀ q tag, s.probing q = some tag →
    s.network.thread q = .listening)
  · rintro _ rfl q tag probes
    cases probes
  · rintro trace s ⟨self, action⟩ s' _ before _ taken q tag probes
    unfold probingStep at taken
    split at taken
    next action' acts =>
      obtain rfl : action = _ := acts
      split_ifs at taken with free
      obtain ⟨network, does, rfl⟩ := Option.map_eq_some_iff.1 taken
      rw [optimizedStep_other does, before q tag probes]
      rcases Bool.or_eq_true_iff.1 free with sends | idle
      · exact .inr sends
      · left
        rintro rfl
        rw [probes] at idle
        cases idle
    next tag' acts idle =>
      obtain rfl : action = _ := acts
      split at taken
      next listening =>
        cases taken
        by_cases mine : q = self
        · exact mine ▸ listening
        · exact before q tag ((Function.update_of_ne mine ..).symm.trans probes)
      next => cases taken
    next source tag' acts _ =>
      obtain rfl : action = _ := acts
      obtain ⟨network, does, rfl⟩ := Option.map_eq_some_iff.1 taken
      by_cases mine : q = self
      · subst mine
        cases (Function.update_self ..).symm.trans probes
      · rw [optimizedStep_other does (.inl mine)]
        exact before q tag ((Function.update_of_ne mine ..).symm.trans probes)
    next tag' acts _ =>
      obtain rfl : action = _ := acts
      cases taken
      by_cases mine : q = self
      · subst mine
        cases (Function.update_self ..).symm.trans probes
      · exact before q tag ((Function.update_of_ne mine ..).symm.trans probes)
    next => cases taken

theorem found_iff {contract : Permission (ProbingNetwork n) (ProbingEvent n)}
    (run : ProbingRun n contract trace s) (probes : s.probing q = some tag) :
    (probingStep s (q, .found source)).isSome = true ↔
      ∃ message ∈ s.network.channel source q, tag.all (· = message.1) = true := by
  have listening := probing_listening run q tag probes
  simp only [probingStep, probes, optimizedStep, listening, Option.isSome_map]
  constructor
  · intro finds
    obtain ⟨both, found⟩ := Option.isSome_iff_exists.1 finds
    obtain ⟨before, tag', after, channel, -, -, suits⟩ := firstTagged_some found
    refine ⟨(tag', both.1), ?_, suits⟩
    rw [channel]
    exact List.mem_append_right _ (List.mem_cons_self ..)
  · rintro ⟨message, member, suits⟩
    rw [Option.isSome_iff_ne_none]
    intro nothing
    rw [firstTagged_none nothing message member] at suits
    cases suits

/-- All that can be seen of the calls is what they find. -/
structure Lossless (trace : Trace (ProbingNetwork n) (ProbingEvent n)) (s : ProbingNetwork n) :
    Prop where
  without :
    OptimizedRun n (fun _ _ e => within packedLimit e = true) (withoutTimeouts trace) s.network
  packed : Packed (withoutTimeouts trace) s.network
  finds : ∀ q tag source, s.probing q = some tag →
    ((probingStep s (q, .found source)).isSome = true ↔
      ∃ message ∈ s.network.channel source q, tag.all (· = message.1) = true)

/-- No call of the timed receive of the optimized communicator loses a message. -/
theorem timeout_loses_nothing (run : ProbingRun n (fun _ _ e => packable e = true) trace s) :
    Lossless trace s :=
  have without := withoutTimeouts_run run
  ⟨without, packed_run without, fun _ _ _ => found_iff run⟩

theorem timeout_loses_nothing_two : ∃ trace s,
    ProbingRun 2 (fun _ _ e => packable e = true) trace s ∧
      Packed.returnedOn 0 1 5 (withoutTimeouts trace) = [(3, [7])] ∧ Lossless trace s := by
  obtain ⟨trace, s, run, reached⟩ := exists_execution probingStep (probingStart 2)
    (fun _ _ e => packable e = true)
    [(1, .call (some 5)), (0, .plain (.send 3 [7] {1} 5)), (1, .expire), (1, .call (some 5)),
      (1, .found 0), (1, .plain .read), (1, .plain .update), (1, .plain .finish)]
    (fun trace _ => Packed.returnedOn 0 1 5 (withoutTimeouts trace) = [(3, [7])])
    (by decide +kernel)
  exact ⟨trace, s, run, of_decide_eq_true reached, timeout_loses_nothing run⟩

end DistributedMonitor.Wire
