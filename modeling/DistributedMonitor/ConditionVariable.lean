import DistributedMonitor.Process

/-! The condition variable algorithm: the table of waits that every process keeps
of all others, the phases of a wait, and the two notifications. -/

namespace DistributedMonitor

variable {n : ℕ} {σ : Type}

/-- What a process lists for a condition variable; a name without an entry lists nobody. -/
def Process.waits (process : Process n σ) (condName : CondName) : StampedSet n :=
  (process.conditionalWaits.lookup condName).getD .empty

/-- `conditionalWaits[condName]` makes an empty entry when there is none. -/
def Process.indexWaits (condName : CondName) (process : Process n σ) :
    AList (fun _ : CondName => StampedSet n) :=
  if condName ∈ process.conditionalWaits then process.conditionalWaits
  else process.conditionalWaits.insert condName .empty

def Process.recordWait (waitInfo : Packet n) (process : Process n σ) : Process n σ :=
  { process with
    conditionalWaits := process.conditionalWaits.insert waitInfo.message
      ((process.waits waitInfo.message).insert waitInfo) }

def Process.recordWaitEnd (self : ProcessId n) (waitEndInfo : Packet n) (process : Process n σ) :
    Process n σ × Envelope n :=
  let erased := { process with
    conditionalWaits := process.conditionalWaits.erase waitEndInfo.message }
  erased.send self .condWaitEndConfirm waitEndInfo.message {waitEndInfo.source}

/-- `DistributedConditionVariable::wait` throws when the mutex is not owned. -/
def Process.wait (condName : CondName) (mutex : MutexName) (predicate : σ → Bool)
    (process : Process n σ) : Option (Process n σ × List (Envelope n)) :=
  if process.isOwned mutex then
    some ({ process.subscribe (.condNotify condName) with
      main := .announcing ⟨condName, mutex, predicate, process.subscriptionSeqNo⟩ }, [])
  else none

def Process.announce (self : ProcessId n) (process : Process n σ) :
    Option (Process n σ × List (Envelope n)) :=
  match process.main with
  | .announcing call =>
      let (process, envelope) := process.sendOthers self .condWait call.condName
      some ({ process with main := .checking call }, [envelope])
  | _ => none

/-- `realCond.wait` leaves its loop when the predicate holds and unlocks otherwise. That it takes
its own mutex in between, which the callback of a notification needs, is part of the step: a
notification dispatched after the evaluation and before the mutex is taken is as one dispatched
before the evaluation. -/
def Process.evaluate (process : Process n σ) : Option (Process n σ × List (Envelope n)) :=
  match process.main with
  | .checking call =>
      if call.predicate (process.state call.mutex) then
        some ({ process with main := .stopped call }, [])
      else some (process.unlock call.mutex (.wait call), [])
  | _ => none

/-- A blocked thread may also wake without having been signalled. -/
def Process.wake (process : Process n σ) : Option (Process n σ × List (Envelope n)) :=
  match process.main with
  | .blocked call _ => some (process.acquireMutex call.mutex (.wait call), [])
  | _ => none

def Process.subscribeConfirmations (process : Process n σ) :
    Option (Process n σ × List (Envelope n)) :=
  match process.main with
  | .stopped call =>
      some ({ process.subscribe (.condWaitEndConfirm call.condName) with
        main := .ending call process.subscriptionSeqNo .empty }, [])
  | _ => none

def Process.announceEnd (self : ProcessId n) (process : Process n σ) :
    Option (Process n σ × List (Envelope n)) :=
  match process.main with
  | .ending call confirmationsSubscriptionId receivedConfirmations =>
      let (process, envelope) := process.sendOthers self .condWaitEnd call.condName
      some ({ process with
        main := .confirming call confirmationsSubscriptionId receivedConfirmations }, [envelope])
  | _ => none

def Process.waitReturns (process : Process n σ) : Option (Process n σ × List (Envelope n)) :=
  match process.main with
  | .confirming call confirmationsSubscriptionId receivedConfirmations =>
      if answersComplete receivedConfirmations then
        some ({ (process.unsubscribe call.notifySubscriptionId).unsubscribe
          confirmationsSubscriptionId with main := .running }, [])
      else none
  | _ => none

/-- The recipient is read under `conditionalWaitsMutex`, which is dropped before the send. -/
def Process.notifyOne (condName : CondName) (process : Process n σ) : Process n σ :=
  let process' := { process with conditionalWaits := process.indexWaits condName }
  match (process.waits condName).packets with
  | [] => process'
  | first :: _ => { process' with main := .notifying condName {first.source} }

/-- Only an empty table, not an empty entry, ends the call early. -/
def Process.notifyAll (condName : CondName) (process : Process n σ) : Process n σ :=
  if process.conditionalWaits.entries = [] then process
  else { process with
    conditionalWaits := process.indexWaits condName
    main := .notifying condName (process.waits condName).senders.toFinset }

def Process.sendNotify (self : ProcessId n) (process : Process n σ) :
    Option (Process n σ × List (Envelope n)) :=
  match process.main with
  | .notifying condName recipients =>
      let (process, envelope) := process.send self .condNotify condName recipients
      some ({ process with main := .running }, [envelope])
  | _ => none

/-- `realCond.notify_one()` reaches the main thread if it is blocked in this wait. -/
def MainThread.signal (condName : CondName) : MainThread n σ → MainThread n σ
  | .blocked call signalled => .blocked call (signalled || call.condName = condName)
  | main => main

/-- The confirmation callback works on the locals of the `wait` that subscribed it. -/
def MainThread.confirm (condName : CondName) (confirmation : Packet n) :
    MainThread n σ → MainThread n σ
  | .ending call id receivedConfirmations =>
      if call.condName = condName then
        .ending call id (receivedConfirmations.insert confirmation)
      else .ending call id receivedConfirmations
  | .confirming call id receivedConfirmations =>
      if call.condName = condName then
        .confirming call id (receivedConfirmations.insert confirmation)
      else .confirming call id receivedConfirmations
  | main => main

def Process.receiveNotify (condName : CondName) (process : Process n σ) : Process n σ :=
  { process with main := process.main.signal condName }

def Process.receiveConfirmation (condName : CondName) (confirmation : Packet n)
    (process : Process n σ) : Process n σ :=
  { process with main := process.main.confirm condName confirmation }

end DistributedMonitor
