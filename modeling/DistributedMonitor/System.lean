import DistributedMonitor.Library.Execution
import DistributedMonitor.Dispatch

/-! The whole system: the processes, a FIFO channel for every ordered pair of them,
and one step of one thread at a time. A thread step is one access to shared data or
one send; what a callback does is one step, as the locks it takes make it. -/

namespace DistributedMonitor
open Library

/-- What a process does next. The first three belong to its receiving thread, the
next eleven are calls and assignments of its program, the rest continue a call. -/
inductive Action (n : ℕ) (σ : Type) where
  | receive (source : ProcessId n)
  | updateTimestamp
  | dispatch
  | registerMutex (mutexName : MutexName)
  | unregisterMutex (mutexName : MutexName)
  | registerCV (condName : CondName)
  | unregisterCV (condName : CondName)
  | assign (mutexName : MutexName) (state : σ)
  | lock (mutexName : MutexName)
  | unlock (mutexName : MutexName)
  | wait (condName : CondName) (mutexName : MutexName) (predicate : σ → Bool)
  | notifyOne (condName : CondName)
  | notifyAll (condName : CondName)
  | leave (monitor : MonitorName)
  | queue
  | acquired
  | answerDeferred (request : Packet n)
  | released
  | announce
  | evaluate
  | wake
  | subscribeConfirmations
  | announceEnd
  | waitReturns
  | sendNotify
  | sendSync
  | unlockMonitor

variable {n : ℕ} {σ : Type}

abbrev Outcome (n : ℕ) (σ : Type) := Process n σ × List (Envelope n)

def Process.call (process : Process n σ) (result : Process n σ) : Option (Outcome n σ) :=
  match process.main with
  | .running => some (result, [])
  | _ => none

/-- `~DistributedMonitorHelper` serializes the state, broadcasts it and unlocks. -/
def Process.leave (serialization : Serialization σ) (monitor : MonitorName)
    (process : Process n σ) : Process n σ :=
  { process with
    main := .saved monitor (serialization.saveState monitor (process.state monitor.1)) }

def Process.sendSync (self : ProcessId n) (process : Process n σ) : Option (Outcome n σ) :=
  match process.main with
  | .saved monitor serializedState =>
      let (process, envelope) := process.sendOthers self .sync
        (packSyncMessage monitor.1 serializedState)
      some ({ process with main := .synced monitor }, [envelope])
  | _ => none

def Process.unlockMonitor (process : Process n σ) : Option (Outcome n σ) :=
  match process.main with
  | .synced monitor => some (process.unlock monitor.1 .program, [])
  | _ => none

/-- A dispatch that ends in an exception has no successor: the process is terminated
with its packet where it was. -/
def Process.dispatchReceived (serialization : Serialization σ) (self : ProcessId n)
    (process : Process n σ) : Option (Outcome n σ) :=
  match process.receiving with
  | .received packet =>
      if process.mustWait packet then none
      else (process.dispatch serialization self packet).toOption
  | _ => none

def Process.act (serialization : Serialization σ) (self : ProcessId n) (process : Process n σ) :
    Action n σ → Option (Outcome n σ)
  | .receive _ => none
  | .updateTimestamp => process.updateTimestamp.map (·, [])
  | .dispatch => process.dispatchReceived serialization self
  | .registerMutex mutexName => process.call
      { process with registeredMutexes := insert mutexName process.registeredMutexes }
  | .unregisterMutex mutexName => process.call
      { process with registeredMutexes := process.registeredMutexes.erase mutexName }
  | .registerCV condName => process.call
      { process with registeredCVs := insert condName process.registeredCVs }
  | .unregisterCV condName => process.call
      { process with registeredCVs := process.registeredCVs.erase condName }
  | .assign mutexName state => process.call
      { process with state := Function.update process.state mutexName state }
  | .lock mutexName => process.call (process.acquireMutex mutexName .program)
  | .unlock mutexName => process.call (process.unlock mutexName .program)
  | .wait condName mutexName predicate =>
      (process.call process).bind fun _ => process.wait condName mutexName predicate
  | .notifyOne condName => process.call (process.notifyOne condName)
  | .notifyAll condName => process.call (process.notifyAll condName)
  | .leave monitor => process.call (process.leave serialization monitor)
  | .queue => process.queue self
  | .acquired => process.acquired
  | .answerDeferred request => process.answerDeferred self request
  | .released => process.released
  | .announce => process.announce self
  | .evaluate => process.evaluate
  | .wake => process.wake
  | .subscribeConfirmations => process.subscribeConfirmations
  | .announceEnd => process.announceEnd self
  | .waitReturns => process.waitReturns
  | .sendNotify => process.sendNotify self
  | .sendSync => process.sendSync self
  | .unlockMonitor => process.unlockMonitor

structure System (n : ℕ) (σ : Type) where
  process : ProcessId n → Process n σ
  channel : ProcessId n → ProcessId n → List RawPacket

abbrev Event (n : ℕ) (σ : Type) := ProcessId n × Action n σ

def addressed (sent : List (Envelope n)) (recipient : ProcessId n) : List RawPacket :=
  (sent.filter (recipient ∈ ·.recipients)).map (·.packet.raw)

/-- The whole send is one step: the sender's lock covers it, and each channel is
free to deliver its packet as late as it likes. -/
def System.update (s : System n σ) (self : ProcessId n) (outcome : Outcome n σ) : System n σ where
  process := Function.update s.process self outcome.1
  channel source recipient :=
    if source = self then s.channel source recipient ++ addressed outcome.2 recipient
    else s.channel source recipient

theorem System.update_own (s : System n σ) (self : ProcessId n) (process' : Process n σ)
    (sent : List (Envelope n)) : (s.update self (process', sent)).process self = process' :=
  Function.update_self ..

theorem System.update_other (s : System n σ) {p self : ProcessId n} (other : p ≠ self)
    (process' : Process n σ) (sent : List (Envelope n)) :
    (s.update self (process', sent)).process p = s.process p :=
  Function.update_of_ne other ..

def System.receive (communicator : Communicator) (s : System n σ) (self source : ProcessId n) :
    Option (System n σ) :=
  match (s.process self).receiving, s.channel source self with
  | .listening, raw :: rest => some
      { process := Function.update s.process self
          ((s.process self).receive communicator source raw)
        channel := fun from' to' =>
          if from' = source ∧ to' = self then rest else s.channel from' to' }
  | _, _ => none

def step (communicator : Communicator) (serialization : Serialization σ) (s : System n σ)
    (event : Event n σ) : Option (System n σ) :=
  match event.2 with
  | .receive source => s.receive communicator event.1 source
  | action => ((s.process event.1).act serialization event.1 action).map (s.update event.1)

/-- What is set up before `listen`: the registered names, the monitors, the states. -/
structure Setup (n : ℕ) (σ : Type) where
  mutexes : ProcessId n → Finset MutexName
  conditions : ProcessId n → Finset CondName
  monitors : ProcessId n → List MonitorName
  state : ProcessId n → MutexName → σ

def Setup.subscriptions (setup : Setup n σ) (p : ProcessId n) : List Subscription :=
  [.mutexRequest, .condWait, .condWaitEnd] ++ (setup.monitors p).map .sync

/-- A monitor registers its mutex under its own name. -/
def Setup.process (setup : Setup n σ) (p : ProcessId n) : Process n σ where
  currentLamportTime := 0
  subscriptions := (List.range (setup.subscriptions p).length).zip (setup.subscriptions p)
  subscriptionSeqNo := (setup.subscriptions p).length
  registeredMutexes := setup.mutexes p ∪ ((setup.monitors p).map Subtype.val).toFinset
  queuedMutexes := fun _ => none
  receivedRequests := fun _ => .empty
  registeredCVs := setup.conditions p
  conditionalWaits := ∅
  owned := fun _ => false
  state := setup.state p
  receiving := .listening
  main := .running

def Setup.system (setup : Setup n σ) : System n σ where
  process := setup.process
  channel := fun _ _ => []

abbrev Run (communicator : Communicator) (serialization : Serialization σ) (setup : Setup n σ)
    (contract : Permission (System n σ) (Event n σ)) :
    Trace (System n σ) (Event n σ) → System n σ → Prop :=
  Execution (step communicator serialization) (· = setup.system) contract

abbrev Obeying (rule : System n σ → Event n σ → Bool) : Permission (System n σ) (Event n σ) :=
  fun _ s e => rule s e = true

theorem exists_run (communicator : Communicator) (serialization : Serialization σ)
    (setup : Setup n σ) (contract : Permission (System n σ) (Event n σ))
    [∀ trace s e, Decidable (contract trace s e)] (events : List (Event n σ))
    (check : Trace (System n σ) (Event n σ) → System n σ → Bool)
    (passes : (replay (step communicator serialization) contract [] setup.system events).any
      (fun last => check last.1 last.2) = true) :
    ∃ trace s, Run communicator serialization setup contract trace s ∧ check trace s = true :=
  exists_execution _ _ _ events check passes

def unary : Serialization ℕ where
  saveState _ state := List.replicate state 1
  restoreState _ _ data := data.length

def gate : MutexName := [103]

def plain (n : ℕ) : Setup n ℕ where
  mutexes _ := {gate}
  conditions _ := ∅
  monitors _ := []
  state _ _ := 0

def board : MonitorName := ⟨[109], by decide⟩

def news : CondName := [99]

def shared (n : ℕ) : Setup n ℕ where
  mutexes _ := ∅
  conditions _ := {news}
  monitors _ := [board]
  state _ _ := 0

def deliver (source recipient : ProcessId n) : List (Event n ℕ) :=
  [(recipient, .receive source), (recipient, .dispatch)]

end DistributedMonitor
