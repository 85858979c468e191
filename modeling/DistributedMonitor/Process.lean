import Mathlib.Data.List.AList
import Mathlib.Logic.Function.Basic
import DistributedMonitor.SyncMessage

/-! One process: its clock, its subscriptions, the tables of the two algorithms and
the positions of its two threads. Locks that are held across one step of the main
thread or one dispatch do not appear; those held across several sends do. -/

namespace DistributedMonitor

/-- The subscriptions of the algorithms and monitors, each naming the closure it stands for. -/
inductive Subscription where
  | mutexRequest
  | condWait
  | condWaitEnd
  | sync (monitor : MonitorName)
  | mutexAgreement (mutexName : MutexName)
  | condNotify (condName : CondName)
  | condWaitEndConfirm (condName : CondName)
  deriving DecidableEq

/-- The arguments and first local of a call of `wait`. The predicate reads the state
that the mutex protects. -/
structure WaitCall (σ : Type) where
  condName : CondName
  mutex : MutexName
  predicate : σ → Bool
  notifySubscriptionId : SubscriptionId

inductive Caller (σ : Type) where
  | program
  | wait (call : WaitCall σ)

inductive ReceivingThread (n : ℕ) where
  | listening
  /-- The clock is updated, the stamp of the packet not yet rewritten. -/
  | updating (packet : Packet n)
  | received (packet : Packet n)
  deriving DecidableEq

/-- Where the main thread stands, with the locals the callbacks capture. -/
inductive MainThread (n : ℕ) (σ : Type) where
  | running
  | queueing (mutexName : MutexName) (subscriptionId : SubscriptionId)
      (receivedAgreements : PacketSet n) (caller : Caller σ)
  | collecting (mutexName : MutexName) (subscriptionId : SubscriptionId)
      (receivedAgreements : PacketSet n) (caller : Caller σ)
  | releasing (mutexName : MutexName) (unanswered : PacketSet n) (caller : Caller σ)
  | announcing (call : WaitCall σ)
  | checking (call : WaitCall σ)
  | blocked (call : WaitCall σ) (signalled : Bool)
  | stopped (call : WaitCall σ)
  | ending (call : WaitCall σ) (confirmationsSubscriptionId : SubscriptionId)
      (receivedConfirmations : PacketSet n)
  | confirming (call : WaitCall σ) (confirmationsSubscriptionId : SubscriptionId)
      (receivedConfirmations : PacketSet n)
  | notifying (condName : CondName) (recipients : Finset (ProcessId n))
  | saved (monitor : MonitorName) (serializedState : ByteString)
  | synced (monitor : MonitorName)

structure Process (n : ℕ) (σ : Type) where
  currentLamportTime : LamportTime
  subscriptions : List (SubscriptionId × Subscription)
  subscriptionSeqNo : SubscriptionId
  registeredMutexes : Finset MutexName
  queuedMutexes : MutexName → Option LamportTime
  receivedRequests : MutexName → PacketSet n
  registeredCVs : Finset CondName
  conditionalWaits : AList (fun _ : CondName => StampedSet n)
  owned : MutexName → Bool
  state : MutexName → σ
  receiving : ReceivingThread n
  main : MainThread n σ

/-- The virtual functions of the monitors. -/
structure Serialization (σ : Type) where
  saveState : MonitorName → σ → ByteString
  restoreState : MonitorName → σ → ByteString → σ

structure Envelope (n : ℕ) where
  packet : Packet n
  recipients : Finset (ProcessId n)

/-- What an uncaught exception on the receiving thread says. It ends the process. -/
inductive DispatchError where
  | noCallbackInvoked
  | notInterested
  | outOfRange
  deriving DecidableEq

variable {n : ℕ} {σ : Type}

def otherProcesses (self : ProcessId n) : Finset (ProcessId n) := Finset.univ.erase self

/-- One stamp is drawn for all recipients, and the packet with it is also returned. -/
def Process.send (self : ProcessId n) (messageType : MessageType) (message : ByteString)
    (recipients : Finset (ProcessId n)) (process : Process n σ) : Process n σ × Envelope n :=
  let lamportTime := process.currentLamportTime + 1
  ({ process with currentLamportTime := lamportTime },
    ⟨⟨lamportTime, self, messageType, message⟩, recipients⟩)

def Process.sendOthers (self : ProcessId n) (messageType : MessageType) (message : ByteString)
    (process : Process n σ) : Process n σ × Envelope n :=
  process.send self messageType message (otherProcesses self)

inductive Communicator where
  | simple
  | optimized
  deriving DecidableEq

/-- The receive of either communicator up to its locked update of the clock. -/
def Process.receive (communicator : Communicator) (source : ProcessId n) (raw : RawPacket)
    (process : Process n σ) : Process n σ :=
  { process with
    currentLamportTime := max raw.lamportTime process.currentLamportTime + 1
    receiving := match communicator with
      | .simple => .received (toPacket raw source)
      | .optimized => .updating (toPacket raw source) }

/-- The last line of `updateTimestamp` reads the clock after the lock is gone. -/
def Process.updateTimestamp (process : Process n σ) : Option (Process n σ) :=
  match process.receiving with
  | .updating packet => some { process with
      receiving := .received { packet with lamportTime := process.currentLamportTime } }
  | _ => none

def Process.subscribe (subscription : Subscription) (process : Process n σ) : Process n σ :=
  { process with
    subscriptions := process.subscriptions ++ [(process.subscriptionSeqNo, subscription)]
    subscriptionSeqNo := process.subscriptionSeqNo + 1 }

def Process.unsubscribe (id : SubscriptionId) (process : Process n σ) : Process n σ :=
  { process with subscriptions := process.subscriptions.filter (·.1 ≠ id) }

def Process.subscribed (process : Process n σ) (subscription : Subscription) : Prop :=
  subscription ∈ process.subscriptions.map (·.2)

/-- `receivedAgreements.size() == getNumberOfProcesses() - 1`, and the same for confirmations. -/
def answersComplete (received : PacketSet n) : Bool := received.size = n - 1

def Process.acquireMutex (mutexName : MutexName) (caller : Caller σ) (process : Process n σ) :
    Process n σ :=
  { process.subscribe (.mutexAgreement mutexName) with
    main := .queueing mutexName process.subscriptionSeqNo .empty caller }

def Process.isOwned (process : Process n σ) (mutexName : MutexName) : Bool :=
  process.owned mutexName

def Caller.afterLock : Caller σ → MainThread n σ
  | .program => .running
  | .wait call => .checking call

def Caller.afterUnlock : Caller σ → MainThread n σ
  | .program => .running
  | .wait call => .blocked call false

/-- `DistributedMutex::unlock` returns at once when the mutex is not owned; otherwise
`releaseMutex` takes its two locks and starts to answer. -/
def Process.unlock (mutexName : MutexName) (caller : Caller σ) (process : Process n σ) :
    Process n σ :=
  if process.isOwned mutexName then
    { process with main := .releasing mutexName (process.receivedRequests mutexName) caller }
  else { process with main := caller.afterUnlock }

end DistributedMonitor
