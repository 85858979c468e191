import DistributedMonitor.Linearization
import DistributedMonitor.Replacement

/-! The processes over MPI. What a process sends goes through a communicator as bytes, and the
receiving thread gets back what the communicator has made of them. With stamps of 64 bits and
messages of bounded length this does what the system does in which whole packets travel. -/

namespace DistributedMonitor
open Library

def MessageType.encoded : MessageType → UInt8
  | .mutexRequest => 0
  | .mutexAgreement => 1
  | .condWait => 2
  | .condWaitEnd => 3
  | .condWaitEndConfirm => 4
  | .condNotify => 5
  | .sync => 6

/-- No process sends a byte that is not the code of an enumerator. -/
def MessageType.decoded (encodedMessageType : UInt8) : Option MessageType :=
  [.mutexRequest, .mutexAgreement, .condWait, .condWaitEnd, .condWaitEndConfirm, .condNotify,
    .sync].find? fun messageType => messageType.encoded == encodedMessageType

@[simp] theorem decoded_encoded (messageType : MessageType) :
    MessageType.decoded messageType.encoded = some messageType := by
  cases messageType <;> rfl

variable {n : ℕ} {σ Content Thread : Type}

def Wire.Packet.decoded (packet : Wire.Packet n) : Option (DistributedMonitor.Packet n) :=
  (MessageType.decoded packet.messageType).map fun messageType =>
    ⟨packet.lamportTime.toNat, packet.source, messageType, packet.message⟩

structure ICommunicator (n : ℕ) (Content Thread : Type) where
  step : Wire.Network n Content Thread → Wire.Event n → Option (Wire.Network n Content Thread)
  /-- The packet that a `receive` returns in its last step. -/
  returned : Wire.Network n Content Thread → Wire.Event n → Option (Wire.Packet n)
  start : Wire.Network n Content Thread

def mpiSimpleCommunicator (n : ℕ) : ICommunicator n Wire.SimpleContent (Wire.SimpleThread n) where
  step := Wire.simpleStep
  returned := Wire.simpleReturned
  start := Wire.simpleStart n

def mpiOptimizedCommunicator (n : ℕ) : ICommunicator n ByteString (Wire.OptimizedThread n) where
  step := Wire.optimizedStep
  returned := Wire.optimizedReturned
  start := Wire.optimizedStart n

def mpiDefaultTag : Wire.MpiTag := 0

def ICommunicator.sendAll (communicator : ICommunicator n Content Thread) (self : ProcessId n) :
    Wire.Network n Content Thread → List (Envelope n) → Option (Wire.Network n Content Thread)
  | network, [] => some network
  | network, envelope :: rest =>
      (communicator.step network (self, .send envelope.packet.messageType.encoded
        envelope.packet.message envelope.recipients mpiDefaultTag)).bind
        fun network => communicator.sendAll self network rest

/-- The clock of a process is the one that its communicator keeps. -/
structure Wired (n : ℕ) (σ Content Thread : Type) where
  process : ProcessId n → Process n σ
  network : Wire.Network n Content Thread

/-- A step of a process, or one of the steps of its `receive`. -/
inductive WiredAction (n : ℕ) (σ : Type) where
  | act (action : Action n σ)
  | accept (source : ProcessId n)
  | read
  | update
  | finish

abbrev WiredEvent (n : ℕ) (σ : Type) := ProcessId n × WiredAction n σ

def Action.isReceive : Action n σ → Bool
  | .receive _ | .updateTimestamp => true
  | _ => false

namespace Wired

def own (s : Wired n σ Content Thread) (p : ProcessId n) : Process n σ :=
  { s.process p with currentLamportTime := (s.network.currentLamportTime p).toNat }

def step (communicator : ICommunicator n Content Thread) (serialization : Serialization σ)
    (s : Wired n σ Content Thread) (e : WiredEvent n σ) : Option (Wired n σ Content Thread) :=
  match e.2 with
  | .act action =>
      if action.isReceive then none
      else ((s.own e.1).act serialization e.1 action).bind fun outcome =>
        (communicator.sendAll e.1 s.network outcome.2).map fun network =>
          ⟨Function.update s.process e.1 outcome.1, network⟩
  | .accept source =>
      if (s.process e.1).receiving = .listening then
        (communicator.step s.network (e.1, .accept none source)).map fun network =>
          { s with network }
      else none
  | .read => (communicator.step s.network (e.1, .read)).map fun network => { s with network }
  | .update => (communicator.step s.network (e.1, .update)).map fun network => { s with network }
  | .finish =>
      ((communicator.returned s.network (e.1, .finish)).bind Wire.Packet.decoded).bind fun packet =>
        (communicator.step s.network (e.1, .finish)).map fun network =>
          ⟨Function.update s.process e.1 { s.process e.1 with receiving := .received packet }, network⟩

end Wired

def Setup.wired (setup : Setup n σ) (communicator : ICommunicator n Content Thread) :
    Wired n σ Content Thread where
  process := setup.process
  network := communicator.start

abbrev WiredRun (communicator : ICommunicator n Content Thread) (serialization : Serialization σ)
    (setup : Setup n σ) (contract : Permission (Wired n σ Content Thread) (WiredEvent n σ)) :
    Trace (Wired n σ Content Thread) (WiredEvent n σ) → Wired n σ Content Thread → Prop :=
  Execution (Wired.step communicator serialization) (· = setup.wired communicator) contract

/-- No clock wraps in the step, and what it sends fits the `int` in which MPI counts. -/
def Wired.fits (communicator : ICommunicator n Content Thread) (serialization : Serialization σ)
    (s : Wired n σ Content Thread) (e : WiredEvent n σ) : Bool :=
  match e.2 with
  | .act action => ((s.own e.1).act serialization e.1 action).all fun outcome =>
      decide (outcome.1.currentLamportTime < UInt64.size) &&
        outcome.2.all fun envelope => decide (Wire.Fits envelope.packet.message)
  | .update => (communicator.step s.network (e.1, .update)).all fun network =>
      decide (s.network.currentLamportTime e.1 < network.currentLamportTime e.1)
  | _ => true

variable {serialization : Serialization σ} {self : ProcessId n} {process process' : Process n σ}
  {action : Action n σ} {sent : List (Envelope n)}

inductive StampedFrom (self : ProcessId n) : LamportTime → List (Envelope n) → LamportTime → Prop
  | none (time : LamportTime) : StampedFrom self time [] time
  | more {time last : LamportTime} {messageType : MessageType} {message : ByteString}
      {recipients : Finset (ProcessId n)} {rest : List (Envelope n)}
      (later : StampedFrom self (time + 1) rest last) : StampedFrom self time
        (⟨⟨time + 1, self, messageType, message⟩, recipients⟩ :: rest) last

namespace StampedFrom

theorem one (time : LamportTime) (messageType : MessageType) (message : ByteString)
    (recipients : Finset (ProcessId n)) : StampedFrom self time
      [⟨⟨time + 1, self, messageType, message⟩, recipients⟩] (time + 1) :=
  .more (.none _)

theorem append {time between last : LamportTime} {first second : List (Envelope n)}
    (here : StampedFrom self time first between) (later : StampedFrom self between second last) :
    StampedFrom self time (first ++ second) last := by
  induction here with
  | none => exact later
  | more _ ih => exact .more (ih later)

theorem le {time last : LamportTime} (stamped : StampedFrom self time sent last) : time ≤ last := by
  induction stamped with
  | none => exact le_rfl
  | more _ ih => exact (Nat.le_succ _).trans ih

end StampedFrom

theorem unlock_clock (process : Process n σ) (name : MutexName) (caller : Caller σ) :
    (process.unlock name caller).currentLamportTime = process.currentLamportTime := by
  unfold Process.unlock
  split_ifs <;> rfl

theorem mainStep_stamped (does : MainStep serialization self process action process' sent) :
    StampedFrom self process.currentLamportTime sent process'.currentLamportTime := by
  cases does with
  | queue | answerDeferred | announce | announceEnd | sendNotify | sendSync => exact .one ..
  | unlock | retry | unlockMonitor =>
    rw [unlock_clock]
    exact .none _
  | _ => exact .none _

theorem callback_stamped {packet : Packet n} {subscription : Subscription}
    {outcome : Process n σ × List (Envelope n)}
    (runs : subscription.callback serialization self packet process = .ok outcome) :
    StampedFrom self process.currentLamportTime outcome.2 outcome.1.currentLamportTime := by
  cases subscription with
  | mutexRequest =>
    cases runs
    unfold Process.processRequest
    split_ifs
    · exact .one ..
    · exact .none _
  | condWaitEnd =>
    cases runs
    exact .one ..
  | condWait | condNotify | condWaitEndConfirm =>
    cases runs
    exact .none _
  | sync monitor =>
    simp only [Subscription.callback] at runs
    split at runs
    · cases runs
      exact .none _
    · cases runs
  | mutexAgreement name =>
    simp only [Subscription.callback, Process.receiveAgreement] at runs
    cases collected : process.main.collect name (process.addAgreement · packet) with
    | error error =>
      rw [collected] at runs
      cases runs
    | ok main =>
      rw [collected] at runs
      cases runs
      exact .none _

theorem runCallbacks_stamped {packet : Packet n} {subscriptions : List Subscription}
    {outcome : Process n σ × List (Envelope n) × Bool}
    (runs : runCallbacks serialization self packet subscriptions process = .ok outcome) :
    StampedFrom self process.currentLamportTime outcome.2.1 outcome.1.currentLamportTime := by
  induction subscriptions generalizing process outcome with
  | nil =>
    cases runs
    exact .none _
  | cons subscription rest ih =>
    simp only [runCallbacks, bind, Except.bind] at runs
    split at runs
    next => cases runs
    next interested accepts =>
      split_ifs at runs
      · split at runs
        next => cases runs
        next between called =>
          split at runs
          next => cases runs
          next after later =>
            cases runs
            exact (callback_stamped called).append (ih later)
      · exact ih runs

theorem dispatch_stamped {packet : Packet n} {outcome : Process n σ × List (Envelope n)}
    (dispatches : process.dispatch serialization self packet = .ok outcome) :
    StampedFrom self process.currentLamportTime outcome.2 outcome.1.currentLamportTime := by
  unfold Process.dispatch at dispatches
  cases ran : runCallbacks serialization self packet (process.subscriptions.map (·.2)) process with
  | error error =>
    rw [ran] at dispatches
    cases dispatches
  | ok all =>
    rw [ran] at dispatches
    obtain ⟨process', sent, invoked⟩ := all
    cases invoked with
    | false => cases dispatches
    | true =>
      cases dispatches
      exact runCallbacks_stamped ran

theorem act_stamped {outcome : Outcome n σ}
    (acts : process.act serialization self action = some outcome) (local' : action.isReceive = false) :
    StampedFrom self process.currentLamportTime outcome.2 outcome.1.currentLamportTime := by
  by_cases main : action.isMain = true
  · exact mainStep_stamped (mainStep_of_act main acts)
  · cases action with
    | receive | updateTimestamp => cases local'
    | dispatch =>
      simp only [Process.act, Process.dispatchReceived] at acts
      split at acts
      next packet received =>
        split_ifs at acts
        cases dispatches : process.dispatch serialization self packet with
        | error error =>
          rw [dispatches] at acts
          cases acts
        | ok outcome' =>
          rw [dispatches] at acts
          cases acts
          exact dispatch_stamped dispatches
      next => cases acts
    | _ => exact absurd rfl main

theorem unlock_receiving (process : Process n σ) (receiving : ReceivingThread n) (name : MutexName)
    (caller : Caller σ) : { process with receiving }.unlock name caller =
      { process.unlock name caller with receiving } := by
  unfold Process.unlock Process.isOwned
  split_ifs <;> rfl

theorem notifyOne_receiving (process : Process n σ) (receiving : ReceivingThread n)
    (condName : CondName) : { process with receiving }.notifyOne condName =
      { process.notifyOne condName with receiving } := by
  simp only [Process.notifyOne, Process.waits, Process.indexWaits]
  split <;> rfl

theorem notifyAll_receiving (process : Process n σ) (receiving : ReceivingThread n)
    (condName : CondName) : { process with receiving }.notifyAll condName =
      { process.notifyAll condName with receiving } := by
  simp only [Process.notifyAll, Process.waits, Process.indexWaits]
  split_ifs <;> rfl

theorem wait_receiving (process : Process n σ) (receiving : ReceivingThread n) (condName : CondName)
    (mutex : MutexName) (predicate : σ → Bool) :
    { process with receiving }.wait condName mutex predicate =
      (process.wait condName mutex predicate).map fun outcome =>
        ({ outcome.1 with receiving }, outcome.2) := by
  unfold Process.wait Process.isOwned
  split_ifs <;> rfl

theorem act_receiving (own : action.isMain = true) (receiving : ReceivingThread n) :
    { process with receiving }.act serialization self action =
      (process.act serialization self action).map fun outcome =>
        ({ outcome.1 with receiving }, outcome.2) := by
  cases action with
  | receive | updateTimestamp | dispatch => cases own
  | registerMutex | unregisterMutex | registerCV | unregisterCV | assign | lock | leave | queue
  | announce | wake | subscribeConfirmations | announceEnd | sendNotify | sendSync =>
    obtain ⟨_, _, _, _, _, _, _, _, _, _, _, main⟩ := process
    cases main <;> rfl
  | unlock =>
    simp only [Process.act, Process.call, unlock_receiving]
    cases process.main <;> rfl
  | notifyOne =>
    simp only [Process.act, Process.call, notifyOne_receiving]
    cases process.main <;> rfl
  | notifyAll =>
    simp only [Process.act, Process.call, notifyAll_receiving]
    cases process.main <;> rfl
  | unlockMonitor =>
    simp only [Process.act, Process.unlockMonitor, unlock_receiving]
    cases process.main <;> rfl
  | wait =>
    simp only [Process.act, Process.call, wait_receiving]
    cases process.main <;> rfl
  | acquired =>
    simp only [Process.act, Process.acquired]
    cases process.main with
    | collecting name id received caller =>
      by_cases complete : answersComplete received = true
      · simp only [if_pos complete]
        rfl
      · simp only [if_neg complete]
        rfl
    | _ => rfl
  | answerDeferred request =>
    simp only [Process.act, Process.answerDeferred]
    cases process.main with
    | releasing name unanswered caller =>
      by_cases waiting : request ∈ unanswered.packets
      · simp only [if_pos waiting]
        rfl
      · simp only [if_neg waiting]
        rfl
    | _ => rfl
  | released =>
    simp only [Process.act, Process.released]
    cases process.main with
    | releasing name unanswered caller =>
      by_cases through : unanswered.packets = []
      · simp only [if_pos through]
        rfl
      · simp only [if_neg through]
        rfl
    | _ => rfl
  | evaluate =>
    simp only [Process.act, Process.evaluate, unlock_receiving]
    cases process.main with
    | checking call =>
      by_cases holds : call.predicate (process.state call.mutex) = true
      · simp only [if_pos holds]
        rfl
      · simp only [if_neg holds]
        rfl
    | _ => rfl
  | waitReturns =>
    simp only [Process.act, Process.waitReturns]
    cases process.main with
    | confirming call id received =>
      by_cases complete : answersComplete received = true
      · simp only [if_pos complete]
        rfl
      · simp only [if_neg complete]
        rfl
    | _ => rfl

end DistributedMonitor
