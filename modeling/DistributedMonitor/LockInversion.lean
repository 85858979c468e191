import DistributedMonitor.Barrier

/-! The locks at the end of `acquireMutex` and of `wait`. The main thread takes that of its call
and then `subscriptionMutex`, the receiving thread the other way round, but never for an answer
that a complete call still has to hear. -/

namespace DistributedMonitor
open Library Registration

variable {n : ℕ} {σ : Type} {serialization : Serialization σ} {setup : Setup n σ}
  {contract : Permission (System n σ) (Event n σ)} {trace : Trace (System n σ) (Event n σ)}
  {s s' : System n σ} {self p : ProcessId n} {monitors : List MonitorName}
  {process process' : Process n σ} {action : Action n σ} {consumed : Option (Packet n)}
  {sent : List (Envelope n)} {packet : Packet n}

inductive Thread where
  | main
  | receiving
  deriving DecidableEq

/-- Where the main thread stands between `queue`, or the announcement of an end, and the return
of the call: it checks its answers for the first time, and again whenever it has blocked and wakes
up. In the last two it asks for `subscriptionMutex`; `wait` unsubscribes twice. -/
inductive MainStage where
  | outside
  | evaluating
  | blocked
  | unsubscribing
  | unsubscribingConfirmations
  deriving DecidableEq

def MainStage.locked : MainStage → Bool
  | .outside | .blocked => false
  | .evaluating | .unsubscribing | .unsubscribingConfirmations => true

/-- Where the receiving thread stands in one round of its loop. It asks for the lock of the call
when it is calling back. -/
inductive ReceivingStage where
  | outside
  | dispatching
  | callingBack
  | answering
  | returning
  deriving DecidableEq

/-- The locks of a process. `answersMutex` is `allAgreementsMutex` of the `acquireMutex`, or
`allConfirmationsMutex` of the `wait`, that is in progress. -/
structure Locks where
  subscriptionMutex : Option Thread
  answersMutex : Option Thread
  main : MainStage
  receiving : ReceivingStage
  deriving DecidableEq

def Locks.free : Locks := ⟨none, none, .outside, .outside⟩

structure LockedSystem (n : ℕ) (σ : Type) where
  system : System n σ
  locks : ProcessId n → Locks

inductive LockedAction (n : ℕ) (σ : Type) where
  | act (action : Action n σ)
  | lockSubscriptions
  | callBack
  | lockCallback
  | unlockSubscriptions
  | lockAnswers
  | block
  | unsubscribe
  | unsubscribeNext

abbrev LockedEvent (n : ℕ) (σ : Type) := ProcessId n × LockedAction n σ

/-- The callbacks that take the lock of the call that subscribed them. -/
def Subscription.locksAnswers : Subscription → Bool
  | .mutexAgreement _ | .condWaitEndConfirm _ => true
  | _ => false

def Process.callsBack (process : Process n σ) (packet : Packet n) : Bool :=
  (process.subscriptions.map (·.2)).any fun subscription =>
    subscription.locksAnswers && decide (subscription.accepts process packet = .ok true)

def MainThread.answers : MainThread n σ → Option (PacketSet n)
  | .collecting _ _ received _ | .confirming _ _ received => some received
  | _ => none

def MainThread.isConfirming : MainThread n σ → Bool
  | .confirming _ _ _ => true
  | _ => false

def Process.callsBackNow (process : Process n σ) : Bool :=
  match process.receiving with
  | .received packet => process.callsBack packet
  | _ => false

/-- Between the two calls of `unsubscribe` in `wait` the notifications have no callback left. -/
def Process.unheard (process : Process n σ) : Bool :=
  match process.receiving, process.main.waitCall with
  | .received packet, some call =>
      packet.messageType = .condNotify ∧ packet.message = call.condName
  | _, _ => false

/-- What a step of one of the threads needs of the locks and does with them. A subscription is
made under `subscriptionMutex`; a dispatch ends with it taken, and one that calls back gives up
the lock of the call; a call that returns gives up its own. -/
def Locks.act (process : Process n σ) (locks : Locks) : Action n σ → Option Locks
  | .receive _ | .updateTimestamp => if locks.receiving = .outside then some locks else none
  | .dispatch => match locks.receiving with
      | .dispatching =>
          if process.callsBackNow ∨ locks.main = .unsubscribingConfirmations ∧ process.unheard
          then none else some { locks with receiving := .returning }
      | .answering => some { locks with answersMutex := none, receiving := .returning }
      | _ => none
  | .lock _ | .wait _ _ _ | .wake | .subscribeConfirmations =>
      if locks.subscriptionMutex = none then some locks else none
  | .acquired =>
      if locks.main = .unsubscribing ∧ locks.subscriptionMutex = none then
        some { locks with answersMutex := none, main := .outside }
      else none
  | .waitReturns =>
      if locks.main = .unsubscribingConfirmations ∧ locks.subscriptionMutex = none then
        some { locks with answersMutex := none, main := .outside }
      else none
  | _ => some locks

def Locks.after (process : Process n σ) (locks : Locks) : LockedAction n σ → Option Locks
  | .act action => locks.act process action
  | .lockSubscriptions => match process.receiving with
      | .received _ =>
          if locks.receiving = .outside ∧ locks.subscriptionMutex = none then
            some { locks with subscriptionMutex := some .receiving, receiving := .dispatching }
          else none
      | _ => none
  | .callBack =>
      if locks.receiving = .dispatching ∧ process.callsBackNow then
        some { locks with receiving := .callingBack }
      else none
  | .lockCallback =>
      if locks.receiving = .callingBack ∧ locks.answersMutex = none then
        some { locks with answersMutex := some .receiving, receiving := .answering }
      else none
  | .unlockSubscriptions =>
      if locks.receiving = .returning then
        some { locks with subscriptionMutex := none, receiving := .outside }
      else none
  | .lockAnswers =>
      if locks.main.locked = false ∧ process.main.answers.isSome ∧ locks.answersMutex = none then
        some { locks with answersMutex := some .main, main := .evaluating }
      else none
  | .block =>
      if locks.main = .evaluating ∧ process.main.answers.any answersComplete = false then
        some { locks with answersMutex := none, main := .blocked }
      else none
  | .unsubscribe =>
      if locks.main = .evaluating ∧ process.main.answers.any answersComplete then
        some { locks with main := .unsubscribing }
      else none
  | .unsubscribeNext =>
      if locks.main = .unsubscribing ∧ process.main.isConfirming ∧
          locks.subscriptionMutex = none then
        some { locks with main := .unsubscribingConfirmations }
      else none

def LockedAction.ofSystem : LockedAction n σ → Option (Action n σ)
  | .act action => some action
  | _ => none

def LockedSystem.moved (serialization : Serialization σ) (l : LockedSystem n σ)
    (event : LockedEvent n σ) : Option (System n σ) :=
  match event.2.ofSystem with
  | some action => step .simple serialization l.system (event.1, action)
  | none => some l.system

def lockedStep (serialization : Serialization σ) (l : LockedSystem n σ) (event : LockedEvent n σ) :
    Option (LockedSystem n σ) :=
  ((l.locks event.1).after (l.system.process event.1) event.2).bind fun locks =>
    (l.moved serialization event).map fun s => ⟨s, Function.update l.locks event.1 locks⟩

def withoutLocks (trace : Trace (LockedSystem n σ) (LockedEvent n σ)) :
    Trace (System n σ) (Event n σ) :=
  recorded (fun l event => event.2.ofSystem.map fun action => (l.system, (event.1, action))) trace

/-- A contract of the system is one on its own steps. -/
abbrev Locked (contract : Permission (System n σ) (Event n σ)) :
    Permission (LockedSystem n σ) (LockedEvent n σ) :=
  fun trace l event => ∀ action ∈ event.2.ofSystem,
    contract (withoutLocks trace) l.system (event.1, action)

abbrev LockedRun (serialization : Serialization σ) (setup : Setup n σ)
    (contract : Permission (System n σ) (Event n σ)) :
    Trace (LockedSystem n σ) (LockedEvent n σ) → LockedSystem n σ → Prop :=
  Execution (lockedStep serialization) (· = ⟨setup.system, fun _ => .free⟩) (Locked contract)

/-- Each of the two threads holds the lock that the other one waits for. -/
structure LockedSystem.Inverted (l : LockedSystem n σ) (p : ProcessId n) : Prop where
  mainHolds : (l.locks p).answersMutex = some .main
  mainWaits : (l.locks p).main = .unsubscribing ∨ (l.locks p).main = .unsubscribingConfirmations
  receivingHolds : (l.locks p).subscriptionMutex = some .receiving
  receivingWaits : (l.locks p).receiving = .callingBack

variable {l l' : LockedSystem n σ} {event : LockedEvent n σ} {locks locks' : Locks}
  {steps : Trace (LockedSystem n σ) (LockedEvent n σ)}

theorem lockedStep_cases (taken : lockedStep serialization l event = some l') :
    ∃ locks s, (l.locks event.1).after (l.system.process event.1) event.2 = some locks ∧
      l.moved serialization event = some s ∧ l' = ⟨s, Function.update l.locks event.1 locks⟩ := by
  obtain ⟨locks, allowed, moves⟩ := Option.bind_eq_some_iff.1 taken
  obtain ⟨s, moved, rfl⟩ := Option.map_eq_some_iff.1 moves
  exact ⟨locks, s, allowed, moved, rfl⟩

theorem run_of_locked (run : LockedRun serialization setup contract steps l) :
    Run .simple serialization setup contract (withoutLocks steps) l.system := by
  apply run.history_invariant
    (I := fun steps l => Run .simple serialization setup contract (withoutLocks steps) l.system)
  · rintro _ rfl
    exact .start rfl
  · intro steps l event l' _ below may taken
    obtain ⟨locks, s, -, moved, rfl⟩ := lockedStep_cases taken
    unfold LockedSystem.moved at moved
    cases acts : event.2.ofSystem with
    | none =>
      rw [acts] at moved
      cases moved
      rwa [withoutLocks, recorded_none (by rw [acts]; rfl)]
    | some action =>
      rw [acts] at moved
      rw [withoutLocks, recorded_some (by rw [acts]; rfl)]
      exact .next below (may action acts) moved

theorem subscribed_iff (wf : process.WellFormed (setup.permanentSubscriptions p))
    {subscription : Subscription} (notSync : subscription.listensTo ≠ .sync) :
    process.subscribed subscription ↔
      process.listener subscription.listensTo = some subscription := by
  have listeners := listeners_eq wf subscription.listensTo
  rw [if_neg notSync] at listeners
  rw [← Option.mem_toList, ← listeners, Process.listeners, List.mem_filter]
  simp [Process.subscribed]

theorem callsBack_iff (wf : process.WellFormed (setup.permanentSubscriptions p)) :
    process.callsBack packet = true ↔
      packet.messageType = .mutexAgreement ∧ process.main.acquiring = some packet.message ∨
      packet.messageType = .condWaitEndConfirm ∧
        ∃ call, process.main.endingCall = some call ∧ call.condName = packet.message := by
  rw [Process.callsBack, List.any_eq_true]
  constructor
  · rintro ⟨subscription, listed, calls⟩
    obtain ⟨locks, accepts⟩ := (Bool.and_eq_true ..).mp calls
    have accepted := of_decide_eq_true accepts
    cases subscription with
    | mutexAgreement name =>
      simp only [Subscription.accepts, Except.ok.injEq, decide_eq_true_eq] at accepted
      obtain ⟨type, rfl⟩ := accepted
      have listens := (subscribed_iff wf (by simp [Subscription.listensTo])).1 listed
      simp only [Subscription.listensTo, Process.listener, Option.map_eq_some_iff,
        Subscription.mutexAgreement.injEq, exists_eq_right] at listens
      exact .inl ⟨type, listens⟩
    | condWaitEndConfirm name =>
      simp only [Subscription.accepts, Except.ok.injEq, decide_eq_true_eq] at accepted
      obtain ⟨type, rfl⟩ := accepted
      have listens := (subscribed_iff wf (by simp [Subscription.listensTo])).1 listed
      simp only [Subscription.listensTo, Process.listener, Option.map_eq_some_iff,
        Subscription.condWaitEndConfirm.injEq] at listens
      exact .inr ⟨type, listens⟩
    | _ => cases locks
  · rintro (⟨type, acquiring⟩ | ⟨type, call, ends, named⟩)
    · have notSync : (Subscription.mutexAgreement packet.message).listensTo ≠ .sync := by
        simp [Subscription.listensTo]
      refine ⟨.mutexAgreement packet.message, (subscribed_iff wf notSync).2 ?_, ?_⟩
      · simp [Subscription.listensTo, Process.listener, acquiring]
      · simp [Subscription.locksAnswers, Subscription.accepts, type]
    · have notSync : (Subscription.condWaitEndConfirm packet.message).listensTo ≠ .sync := by
        simp [Subscription.listensTo]
      refine ⟨.condWaitEndConfirm packet.message, (subscribed_iff wf notSync).2 ?_, ?_⟩
      · simp [Subscription.listensTo, Process.listener, ends, named]
      · simp [Subscription.locksAnswers, Subscription.accepts, type]

theorem callsBack_congr (same : process'.subscriptions = process.subscriptions) :
    process'.callsBack packet = process.callsBack packet := by
  unfold Process.callsBack
  rw [same]
  congr 1
  funext subscription
  cases subscription <;> rfl

theorem callsBackNow_iff : process.callsBackNow = true ↔
    ∃ packet, process.receiving = .received packet ∧ process.callsBack packet = true := by
  unfold Process.callsBackNow
  cases process.receiving <;> simp

theorem mainStep_answers {received : PacketSet n}
    (does : MainStep serialization self process action process' sent)
    (waits : process.main.answers = some received) :
    action = .acquired ∨ action = .waitReturns := by
  cases does with
  | acquired => exact .inl rfl
  | waitReturns => exact .inr rfl
  | configured _ main | assign main | lock main | unlock main | wait main | notify _ main
  | leave main | queue main | announce main | stop main | retry main | wake main
  | subscribeConfirmations main | announceEnd main | sendNotify main | sendSync main
  | unlockMonitor main | answerDeferred main | released main =>
    rw [main] at waits
    cases waits

theorem dispatched_answers (wf : process.WellFormed (setup.permanentSubscriptions p))
    (does : Dispatched self packet monitors process process' sent)
    (silent : process.callsBack packet = false) :
    process'.main.answers = process.main.answers := by
  have heard : ¬_ := mt (callsBack_iff wf).2 (Bool.eq_false_iff.1 silent)
  cases does with
  | early type main | counted type main =>
    exact absurd (.inl ⟨type, by rw [main]; rfl⟩) heard
  | confirmed type ends named => exact absurd (.inr ⟨type, _, ends, named.symm⟩) heard
  | notified =>
    cases process.main <;> rfl
  | agreed | deferred | waiting | ended | synced => rfl

theorem mainStep_subscriptions
    (does : MainStep serialization self process action process' sent)
    (allowed : locks.act process action = some locks')
    (taken : locks.subscriptionMutex ≠ none) : process'.subscriptions = process.subscriptions := by
  cases does with
  | lock | wait | wake | subscribeConfirmations =>
    simp only [Locks.act] at allowed
    rw [if_neg taken] at allowed
    cases allowed
  | acquired | waitReturns =>
    simp only [Locks.act] at allowed
    rw [if_neg fun both => taken both.2] at allowed
    cases allowed
  | unlock | retry | unlockMonitor =>
    simp only [Process.unlock]
    split <;> rfl
  | _ => rfl

/-- All agreements are counted, so none is on its way. -/
theorem agreed_complete (run : Run .simple serialization setup contract trace s)
    {mutexName : MutexName} {id : SubscriptionId} {received : PacketSet n} {caller : Caller σ}
    (main : (s.process p).main = .collecting mutexName id received caller)
    (complete : received.size = n - 1) {raw : RawPacket} (q : ProcessId n)
    (member : raw ∈ s.pending q p) : raw.carries .mutexAgreement mutexName = false := by
  obtain ⟨a, inv, sim, -⟩ := simulated_unordered run mutexName
  by_contra agreement
  have agreed := sim.token_agreed member (Bool.eq_true_of_not_eq_false agreement)
  have other := (inv.token_awaiting p q (by rw [agreed]; decide)).1
  have listed := counted_of_collecting run main complete q other
  rw [(sim.counted p q).1 listed] at agreed
  cases agreed

theorem counted_of_confirming (wf : s.WellFormed setup) {call : WaitCall σ} {id : SubscriptionId}
    {received : PacketSet n} (alone : Alone (s.pair call.condName p p))
    (main : (s.process p).main = .confirming call id received)
    (complete : received.size = n - 1) : ∀ q, q ≠ p → q ∈ received.senders := by
  have coherent := (wf p).coherent
  have uncounted := alone.unacknowledged
  simp only [System.pair] at uncounted
  rw [main] at coherent uncounted
  simp only [MainThread.confirmations, if_true] at uncounted
  exact (PacketSet.size_eq_iff coherent uncounted).1 complete

theorem confirmed_complete (run : Run .simple serialization setup contract trace s)
    {call : WaitCall σ} {id : SubscriptionId} {received : PacketSet n}
    (main : (s.process p).main = .confirming call id received)
    (complete : received.size = n - 1)
    (hears : (s.process p).receiving = .received packet)
    (type : packet.messageType = .condWaitEndConfirm) : packet.message ≠ call.condName := by
  intro named
  have alone := (barrier_run run call.condName).1 p
  obtain ⟨other, id', received', main', -, unlisted⟩ := (confirms_run run hears type named).current
  cases main.symm.trans main'
  apply unlisted
  apply counted_of_confirming (wellFormed_run run) alone main complete
  -- nobody confirms the end of its own wait
  intro own
  have pending := received_pending hears
  rw [own] at pending
  have listed : Answer.acknowledge ∈ (s.pair call.condName p p).answers :=
    List.mem_filterMap.2 ⟨packet.raw, pending,
      acknowledge_iff.2 (RawPacket.carries_iff.2 ⟨type, named⟩)⟩
  rw [alone.answers] at listed
  cases listed

theorem silent_complete (run : Run .simple serialization setup contract trace s)
    (complete : (s.process p).main.answers.any answersComplete = true) :
    (s.process p).callsBackNow = false := by
  by_contra calls
  obtain ⟨packet, hears, called⟩ := callsBackNow_iff.1 (Bool.eq_true_of_not_eq_false calls)
  obtain ⟨received, waits, full⟩ := (Option.any_eq_true ..).mp complete
  have size := of_decide_eq_true full
  rcases (callsBack_iff (wellFormed_run run p)).1 called with
    ⟨type, acquiring⟩ | ⟨type, call, ends, named⟩
  · cases main : (s.process p).main with
    | collecting name id answers caller =>
      rw [main] at waits acquiring
      cases waits
      cases acquiring
      have carries : packet.raw.carries .mutexAgreement packet.message = true :=
        RawPacket.carries_iff.2 ⟨type, rfl⟩
      rw [agreed_complete run main size packet.source (received_pending hears)] at carries
      cases carries
    | confirming | queueing =>
      rw [main] at waits acquiring
      cases acquiring <;> cases waits
    | _ =>
      rw [main] at waits
      cases waits
  · cases main : (s.process p).main with
    | confirming other id answers =>
      rw [main] at waits ends
      cases waits
      cases ends
      exact confirmed_complete run main size hears type named.symm
    | _ =>
      rw [main] at waits ends
      cases ends <;> cases waits

structure Locks.Held (process : Process n σ) (locks : Locks) : Prop where
  dispatching : locks.receiving ≠ .outside → locks.subscriptionMutex = some .receiving
  answering : locks.receiving = .answering → locks.answersMutex = some .receiving
  calling : locks.receiving = .callingBack ∨ locks.receiving = .answering →
    process.callsBackNow = true
  waiting : locks.main.locked = true → locks.answersMutex = some .main
  complete : locks.main = .unsubscribing ∨ locks.main = .unsubscribingConfirmations →
    process.main.answers.any answersComplete = true

theorem act_cases (notDispatch : action ≠ .dispatch)
    (allowed : locks.act process action = some locks') :
    locks' = locks ∧ action ≠ .acquired ∧ action ≠ .waitReturns ∨
      locks.subscriptionMutex = none ∧
        locks' = { locks with answersMutex := none, main := .outside } := by
  cases action with
  | dispatch => exact absurd rfl notDispatch
  | acquired | waitReturns =>
    simp only [Locks.act] at allowed
    split_ifs at allowed with both
    cases allowed
    exact .inr ⟨both.2, rfl⟩
  | receive | updateTimestamp | lock | wait | wake | subscribeConfirmations =>
    simp only [Locks.act] at allowed
    split_ifs at allowed
    cases allowed
    exact .inl ⟨rfl, by simp, by simp⟩
  | _ =>
    cases allowed
    exact .inl ⟨rfl, by simp, by simp⟩

theorem receives_outside (receives : (∃ source, action = .receive source) ∨ action = .updateTimestamp)
    (allowed : locks.act process action = some locks') : locks.receiving = .outside := by
  by_contra inside
  rcases receives with ⟨source, rfl⟩ | rfl
  all_goals
    rw [Locks.act, if_neg inside] at allowed
    cases allowed

namespace Locks.Held

theorem free : Locks.free.Held process := by
  constructor <;> simp [Locks.free, MainStage.locked]

theorem mainStep (held : locks.Held process)
    (does : MainStep serialization self process action process' sent)
    (allowed : locks.act process action = some locks') : locks'.Held process' := by
  rcases act_cases (mainStep_not_dispatch does) allowed with
    ⟨rfl, notAcquired, notReturned⟩ | ⟨free, rfl⟩
  · exact {
      dispatching := held.dispatching
      answering := held.answering
      calling := by
        intro calls
        obtain ⟨packet, hears, called⟩ := callsBackNow_iff.1 (held.calling calls)
        have taken : locks'.subscriptionMutex = some .receiving := by
          apply held.dispatching
          rcases calls with here | here <;> rw [here] <;> decide
        have same := mainStep_subscriptions does allowed (by rw [taken]; simp)
        exact callsBackNow_iff.2 ⟨packet, (mainStep_receiving does).trans hears,
          (callsBack_congr same).trans called⟩
      waiting := held.waiting
      complete := by
        intro leaves
        obtain ⟨received, waits, -⟩ := (Option.any_eq_true ..).mp (held.complete leaves)
        rcases mainStep_answers does waits with acts | acts
        · exact absurd acts notAcquired
        · exact absurd acts notReturned }
  · -- with `subscriptionMutex` free the receiving thread is not in its loop
    have outside : locks.receiving = .outside := by
      by_contra inside
      rw [held.dispatching inside] at free
      cases free
    constructor <;> simp [outside, MainStage.locked]

theorem dispatch (held : locks.Held process)
    (wf : process.WellFormed (setup.permanentSubscriptions p))
    (received : process.receiving = .received packet)
    (does : Dispatched self packet monitors process process' sent)
    (allowed : locks.act process .dispatch = some locks') : locks'.Held process' := by
  simp only [Locks.act] at allowed
  split at allowed
  next dispatching =>
    split_ifs at allowed with kept
    cases allowed
    have silent : process.callsBack packet = false := by
      rw [← Bool.not_eq_true]
      exact fun called => kept (.inl (callsBackNow_iff.2 ⟨packet, received, called⟩))
    exact {
      dispatching := fun _ => held.dispatching (by rw [dispatching]; decide)
      answering := by simp
      calling := by simp
      waiting := held.waiting
      complete := fun leaves => by
        rw [dispatched_answers wf does silent]
        exact held.complete leaves }
  next answering =>
    cases allowed
    have unlocked : locks.main.locked ≠ true := by
      intro inside
      have mine := held.waiting inside
      rw [held.answering answering] at mine
      cases mine
    exact {
      dispatching := fun _ => held.dispatching (by rw [answering]; decide)
      answering := by simp
      calling := by simp
      waiting := fun inside => absurd inside unlocked
      complete := by
        rintro (here | here) <;> exact absurd (by rw [here]; rfl) unlocked }
  next => cases allowed

theorem locked (held : locks.Held process) {locking : LockedAction n σ}
    (here : locking.ofSystem = none) (allowed : locks.after process locking = some locks') :
    locks'.Held process := by
  cases locking with
  | act => cases here
  | lockSubscriptions =>
    simp only [Locks.after] at allowed
    split at allowed
    · split_ifs at allowed with free
      cases allowed
      exact { held with
        dispatching := by simp
        answering := by simp
        calling := by simp }
    · cases allowed
  | callBack =>
    simp only [Locks.after] at allowed
    split_ifs at allowed with free
    cases allowed
    exact { held with
      dispatching := fun _ => held.dispatching (by rw [free.1]; decide)
      answering := by simp
      calling := fun _ => free.2 }
  | lockCallback =>
    simp only [Locks.after] at allowed
    split_ifs at allowed with free
    cases allowed
    exact { held with
      dispatching := fun _ => held.dispatching (by rw [free.1]; decide)
      answering := fun _ => rfl
      calling := fun _ => held.calling (.inl free.1)
      waiting := by
        intro inside
        have mine := held.waiting inside
        rw [free.2] at mine
        cases mine }
  | unlockSubscriptions =>
    simp only [Locks.after] at allowed
    split_ifs at allowed with free
    cases allowed
    exact { held with
      dispatching := by simp
      answering := by simp
      calling := by simp }
  | lockAnswers =>
    simp only [Locks.after] at allowed
    split_ifs at allowed with free
    cases allowed
    exact { held with
      answering := by
        intro answers
        have other := held.answering answers
        rw [free.2.2] at other
        cases other
      waiting := fun _ => rfl
      complete := by simp }
  | block =>
    simp only [Locks.after] at allowed
    split_ifs at allowed with free
    cases allowed
    exact { held with
      answering := by
        intro answers
        have other := held.answering answers
        rw [held.waiting (by rw [free.1]; decide)] at other
        cases other
      waiting := by simp [MainStage.locked]
      complete := by simp }
  | unsubscribe =>
    simp only [Locks.after] at allowed
    split_ifs at allowed with free
    cases allowed
    exact { held with
      waiting := fun _ => held.waiting (by rw [free.1]; decide)
      complete := fun _ => free.2 }
  | unsubscribeNext =>
    simp only [Locks.after] at allowed
    split_ifs at allowed with free
    cases allowed
    exact { held with
      waiting := fun _ => held.waiting (by rw [free.1]; decide)
      complete := fun _ => held.complete (.inl free.1) }

theorem between (held : locks.Held process) (notDispatch : action ≠ .dispatch)
    (allowed : locks.act process action = some locks') (outside : locks.receiving = .outside)
    (same : process'.main = process.main) : locks'.Held process' := by
  rcases act_cases notDispatch allowed with ⟨rfl, -, -⟩ | ⟨free, rfl⟩
  · exact {
      dispatching := held.dispatching
      answering := held.answering
      calling := by simp [outside]
      waiting := held.waiting
      complete := same ▸ held.complete }
  · constructor <;> simp [outside, MainStage.locked]

theorem step (held : (l.locks self).Held (l.system.process self))
    (wf : l.system.WellFormed setup)
    (allowed : (l.locks self).act (l.system.process self) action = some locks)
    (taken : step .simple serialization l.system (self, action) = some s) :
    locks.Held (s.process self) := by
  cases systemStep wf taken with
  | receive =>
    simp only [Function.update_self]
    exact held.between (by simp) allowed (receives_outside (.inl ⟨_, rfl⟩) allowed) rfl
  | updateTimestamp =>
    rw [System.update_own]
    exact held.between (by simp) allowed (receives_outside (.inr rfl) allowed) rfl
  | acts does =>
    rw [System.update_own]
    cases does with
    | main does => exact held.mainStep does allowed
    | dispatch received free dispatches does => exact held.dispatch (wf self) received does allowed

end Locks.Held

theorem step_elsewhere (wf : s.WellFormed setup) {e : Event n σ}
    (taken : step .simple serialization s e = some s') (other : p ≠ e.1) :
    s'.process p = s.process p := by
  cases systemStep wf taken with
  | receive => exact Function.update_of_ne other ..
  | updateTimestamp | acts => exact s.update_other other ..

theorem locks_run {I : Process n σ → Locks → Prop} (free : ∀ process, I process .free)
    (act : ∀ {l : LockedSystem n σ} {self action locks s}, l.system.WellFormed setup →
      I (l.system.process self) (l.locks self) →
      (l.locks self).act (l.system.process self) action = some locks →
      step .simple serialization l.system (self, action) = some s →
      I (s.process self) locks)
    (lock : ∀ {process locks locking locks'}, I process locks →
      LockedAction.ofSystem locking = none →
      Locks.after process locks locking = some locks' → I process locks')
    (run : LockedRun serialization setup contract steps l) (p : ProcessId n) :
    I (l.system.process p) (l.locks p) := by
  have everywhere : ∀ p, I (l.system.process p) (l.locks p) := by
    apply run.invariant (I := fun l => ∀ p, I (l.system.process p) (l.locks p))
    · rintro _ rfl p
      exact free _
    · intro steps l event l' run kept may taken p
      have wf := wellFormed_run (run_of_locked run)
      obtain ⟨self, locking⟩ := event
      obtain ⟨locks, s, allowed, moved, rfl⟩ := lockedStep_cases taken
      unfold LockedSystem.moved at moved
      cases locking with
      | act action =>
        by_cases mine : p = self
        · subst mine
          simp only [Function.update_self]
          exact act wf (kept p) allowed moved
        · have same := step_elsewhere wf moved mine
          simp only [Function.update_of_ne mine, same]
          exact kept p
      | _ =>
        cases moved
        by_cases mine : p = self
        · subst mine
          simp only [Function.update_self]
          exact lock (kept p) rfl allowed
        · simp only [Function.update_of_ne mine]
          exact kept p
  exact everywhere p

theorem held_run (run : LockedRun serialization setup contract steps l) (p : ProcessId n) :
    (l.locks p).Held (l.system.process p) :=
  locks_run (fun _ => .free) (fun wf held allowed taken => held.step wf allowed taken)
    (fun held here allowed => held.locked here allowed) run p

/-- A run of the system has been taken with locks, and only those of one process are taken. -/
def Taken (serialization : Serialization σ) (setup : Setup n σ)
    (contract : Permission (System n σ) (Event n σ)) (trace : Trace (System n σ) (Event n σ))
    (s : System n σ) (p : ProcessId n) (locks : Locks) : Prop :=
  ∃ steps, withoutLocks steps = trace ∧
    LockedRun serialization setup contract steps ⟨s, Function.update (fun _ => .free) p locks⟩

namespace Taken

theorem lock (taken : Taken serialization setup contract trace s p locks)
    (locking : LockedAction n σ) (locks' : Locks) (here : locking.ofSystem = none)
    (allowed : locks.after (s.process p) locking = some locks') :
    Taken serialization setup contract trace s p locks' := by
  obtain ⟨steps, same, run⟩ := taken
  refine ⟨_, ?_, .next run (e := (p, locking)) ?_ ?_⟩
  · rw [withoutLocks, recorded_none (by rw [here]; rfl)]
    exact same
  · intro action acts
    rw [here] at acts
    exact absurd acts (Option.not_mem_none action)
  · simp only [lockedStep, LockedSystem.moved, here, Function.update_self, allowed,
      Option.bind_some, Option.map_some, Function.update_idem]

theorem act (taken : Taken serialization setup contract trace s p locks)
    (may : contract trace s (p, action))
    (does : step .simple serialization s (p, action) = some s')
    (allowed : locks.act (s.process p) action = some locks') :
    Taken serialization setup contract ((s, (p, action)) :: trace) s' p locks' := by
  obtain ⟨steps, same, run⟩ := taken
  refine ⟨_, ?_, .next run (e := (p, .act action)) ?_ ?_⟩
  · rw [withoutLocks, recorded_some rfl]
    exact congrArg _ same
  · intro other acts
    cases acts
    rwa [same]
  · simp only [lockedStep, LockedSystem.moved, LockedAction.ofSystem, Function.update_self,
      Locks.after, allowed, does, Option.bind_some, Option.map_some, Function.update_idem]

theorem dispatch (taken : Taken serialization setup contract trace s p .free)
    (may : contract trace s (p, .dispatch))
    (does : step .simple serialization s (p, .dispatch) = some s') :
    Taken serialization setup contract ((s, (p, .dispatch)) :: trace) s' p .free := by
  have received : ∃ packet, (s.process p).receiving = .received packet := by
    obtain ⟨outcome, acts, -⟩ := step_act (by simp) does
    simp only [Process.act, Process.dispatchReceived] at acts
    split at acts
    next packet received => exact ⟨packet, received⟩
    next => cases acts
  obtain ⟨packet, received⟩ := received
  have dispatching := taken.lock .lockSubscriptions
    ⟨some .receiving, none, .outside, .dispatching⟩ rfl
    (by simp [Locks.after, received, Locks.free])
  have done : Taken serialization setup contract ((s, (p, .dispatch)) :: trace) s' p
      ⟨some .receiving, none, .outside, .returning⟩ := by
    by_cases calls : (s.process p).callsBackNow = true
    · have calling := dispatching.lock .callBack
        ⟨some .receiving, none, .outside, .callingBack⟩ rfl
        (by simp [Locks.after, calls])
      have answering := calling.lock .lockCallback
        ⟨some .receiving, some .receiving, .outside, .answering⟩ rfl
        (by simp [Locks.after])
      exact answering.act may does rfl
    · exact dispatching.act may does (by simp [Locks.act, calls])
  exact done.lock .unlockSubscriptions .free rfl rfl

theorem unsubscribing (taken : Taken serialization setup contract trace s p .free)
    {received : PacketSet n} (waits : (s.process p).main.answers = some received)
    (complete : answersComplete received = true) :
    Taken serialization setup contract trace s p ⟨none, some .main, .unsubscribing, .outside⟩ := by
  have evaluating := taken.lock .lockAnswers ⟨none, some .main, .evaluating, .outside⟩ rfl
    (by simp [Locks.after, waits, Locks.free, MainStage.locked])
  exact evaluating.lock .unsubscribe _ rfl
    (by simp [Locks.after, waits, complete])

theorem step (taken : Taken serialization setup contract trace s p .free)
    (may : contract trace s (p, action))
    (does : step .simple serialization s (p, action) = some s') :
    Taken serialization setup contract ((s, (p, action)) :: trace) s' p .free := by
  cases action with
  | dispatch => exact taken.dispatch may does
  | acquired =>
    obtain ⟨outcome, acts, -⟩ := step_act (by simp) does
    simp only [Process.act, Process.acquired] at acts
    split at acts
    next main =>
      split_ifs at acts with complete
      exact (taken.unsubscribing (by rw [main]; rfl) complete).act may does rfl
    next => cases acts
  | waitReturns =>
    obtain ⟨outcome, acts, -⟩ := step_act (by simp) does
    simp only [Process.act, Process.waitReturns] at acts
    split at acts
    next main =>
      split_ifs at acts with complete
      have again := (taken.unsubscribing (by rw [main]; rfl) complete).lock
        .unsubscribeNext ⟨none, some .main, .unsubscribingConfirmations, .outside⟩ rfl
        (by simp [Locks.after, main, MainThread.isConfirming])
      exact again.act may does rfl
    next => cases acts
  | _ => exact taken.act may does rfl

end Taken

theorem locked_of_run (run : Run .simple serialization setup contract trace s) :
    ∃ steps, withoutLocks steps = trace ∧
      LockedRun serialization setup contract steps ⟨s, fun _ => .free⟩ := by
  induction run with
  | start initial =>
    subst initial
    exact ⟨[], rfl, .start rfl⟩
  | @next trace s s' e run may does ih =>
    have unlocked : Function.update (fun _ : ProcessId n => Locks.free) e.1 .free = fun _ => .free :=
      Function.update_eq_self ..
    have taken : Taken serialization setup contract trace s e.1 .free := by
      unfold Taken
      rw [unlocked]
      exact ih
    have after := taken.step may does
    unfold Taken at after
    rwa [unlocked] at after

/-- The two threads of a process never wait for each other at the end of `acquireMutex` or of
`wait`. -/
theorem never_inverted (run : LockedRun serialization setup contract steps l) (p : ProcessId n) :
    ¬l.Inverted p := by
  intro inverted
  have held := held_run run p
  have calls := held.calling (.inl inverted.receivingWaits)
  rw [silent_complete (run_of_locked run) (held.complete inverted.mainWaits)] at calls
  cases calls

theorem never_inverted_two : ∃ steps l,
    LockedRun unary (plain 2) (Obeying acquiresOnce) steps l ∧
      l.locks 0 = ⟨some .receiving, some .main, .unsubscribing, .dispatching⟩ ∧ ¬l.Inverted 0 := by
  obtain ⟨steps, l, run, reached⟩ := exists_execution (lockedStep unary)
    ⟨(plain 2).system, fun _ => .free⟩ (Locked (Obeying acquiresOnce))
    [(0, .act (.lock gate)), (0, .act .queue), (1, .act (.receive 0)), (1, .lockSubscriptions),
      (1, .act .dispatch), (1, .unlockSubscriptions), (1, .act (.lock gate)), (1, .act .queue),
      (0, .act (.receive 1)), (0, .lockSubscriptions), (0, .callBack), (0, .lockCallback),
      (0, .act .dispatch), (0, .unlockSubscriptions), (0, .act (.receive 1)),
      (0, .lockSubscriptions), (0, .lockAnswers), (0, .unsubscribe)]
    (fun _ (l : LockedSystem 2 ℕ) =>
      l.locks 0 = ⟨some .receiving, some .main, .unsubscribing, .dispatching⟩)
    (by decide +kernel)
  exact ⟨steps, l, run, of_decide_eq_true reached, never_inverted run 0⟩

end DistributedMonitor
