import DistributedMonitor.RicartAgrawala
import DistributedMonitor.ConditionVariable

/-! The receiving thread between two receives: every subscription whose predicate
accepts the packet has its callback run, and a packet nobody accepts is an error. -/

namespace DistributedMonitor

variable {n : ℕ} {σ : Type}

/-- The predicate functions. That of a monitor reads the name out of the message and
throws when there is no name to read. -/
def Subscription.accepts (process : Process n σ) (packet : Packet n) :
    Subscription → Except DispatchError Bool
  | .mutexRequest => .ok (packet.messageType = .mutexRequest ∧
      packet.message ∈ process.registeredMutexes)
  | .condWait => .ok (packet.messageType = .condWait ∧ packet.message ∈ process.registeredCVs)
  | .condWaitEnd => .ok (packet.messageType = .condWaitEnd ∧
      packet.message ∈ process.registeredCVs)
  | .sync monitor =>
      if packet.messageType = .sync then
        match extractMutexName packet.message with
        | some name => .ok (name = monitor.1)
        | none => .error .outOfRange
      else .ok false
  | .mutexAgreement mutexName => .ok (packet.messageType = .mutexAgreement ∧
      packet.message = mutexName)
  | .condNotify condName => .ok (packet.messageType = .condNotify ∧ packet.message = condName)
  | .condWaitEndConfirm condName => .ok (packet.messageType = .condWaitEndConfirm ∧
      packet.message = condName)

def Process.restore (serialization : Serialization σ) (monitor : MonitorName)
    (data : ByteString) (process : Process n σ) : Process n σ :=
  { process with
    state := Function.update process.state monitor.1
      (serialization.restoreState monitor (process.state monitor.1) data) }

def Subscription.callback (serialization : Serialization σ) (self : ProcessId n)
    (packet : Packet n) (process : Process n σ) :
    Subscription → Except DispatchError (Process n σ × List (Envelope n))
  | .mutexRequest => .ok (process.processRequest self packet)
  | .condWait => .ok (process.recordWait packet, [])
  | .condWaitEnd =>
      let (process, envelope) := process.recordWaitEnd self packet
      .ok (process, [envelope])
  | .sync monitor =>
      match extractSerializedData packet.message with
      | some data => .ok (process.restore serialization monitor data, [])
      | none => .error .outOfRange
  | .mutexAgreement mutexName => do
      return (← process.receiveAgreement mutexName packet, [])
  | .condNotify condName => .ok (process.receiveNotify condName, [])
  | .condWaitEndConfirm condName => .ok (process.receiveConfirmation condName packet, [])

def runCallbacks (serialization : Serialization σ) (self : ProcessId n) (packet : Packet n) :
    List Subscription → Process n σ →
      Except DispatchError (Process n σ × List (Envelope n) × Bool)
  | [], process => .ok (process, [], false)
  | subscription :: rest, process => do
      if ← subscription.accepts process packet then
        let (process, sent) ← subscription.callback serialization self packet process
        let (process, more, _) ← runCallbacks serialization self packet rest process
        return (process, sent ++ more, true)
      else runCallbacks serialization self packet rest process

def Process.dispatch (serialization : Serialization σ) (self : ProcessId n) (packet : Packet n)
    (process : Process n σ) : Except DispatchError (Process n σ × List (Envelope n)) := do
  let (process', sent, anyCallbackInvoked) ← runCallbacks serialization self packet
    (process.subscriptions.map (·.2)) process
  if anyCallbackInvoked then return ({ process' with receiving := .listening }, sent)
  else .error .noCallbackInvoked

/-- Callbacks that need a lock the main thread keeps over several sends wait for it:
the locks of `releaseMutex`, and the internal mutex of `realCond` while it unlocks. -/
def Process.mustWait (process : Process n σ) (packet : Packet n) : Bool :=
  match process.main with
  | .releasing _ _ caller => match packet.messageType with
    | .mutexRequest | .mutexAgreement => true
    | .condNotify => match caller with
      | .program => false
      | .wait call => call.condName = packet.message
    | _ => false
  | _ => false

end DistributedMonitor
