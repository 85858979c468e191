import DistributedMonitor.Process

/-! The exclusion algorithm: queueing for a mutex, answering requests, and the
release that answers what was deferred. -/

namespace DistributedMonitor

variable {n : ℕ} {σ : Type}

/-- `queue` keeps `queuedMutexesMutex` over the send and the entry it makes. -/
def Process.queue (self : ProcessId n) (process : Process n σ) :
    Option (Process n σ × List (Envelope n)) :=
  match process.main with
  | .queueing mutexName subscriptionId receivedAgreements caller =>
      let (process, envelope) := process.sendOthers self .mutexRequest mutexName
      some ({ process with
        queuedMutexes :=
          Function.update process.queuedMutexes mutexName (some envelope.packet.lamportTime)
        main := .collecting mutexName subscriptionId receivedAgreements caller }, [envelope])
  | _ => none

/-- The wait for agreements is over: `acquireMutex` unsubscribes and returns to `lock`. -/
def Process.acquired (process : Process n σ) : Option (Process n σ × List (Envelope n)) :=
  match process.main with
  | .collecting mutexName subscriptionId receivedAgreements caller =>
      if answersComplete receivedAgreements then
        some ({ process.unsubscribe subscriptionId with
          owned := Function.update process.owned mutexName true
          main := caller.afterLock }, [])
      else none
  | _ => none

def Process.canSendAgreement (self : ProcessId n) (process : Process n σ) (request : Packet n) :
    Bool :=
  match process.queuedMutexes request.message with
  | none => true
  | some myRequestLamportTime =>
      request.lamportTime < myRequestLamportTime ∨
        request.lamportTime = myRequestLamportTime ∧ request.source < self

def Process.sendAgreement (self : ProcessId n) (request : Packet n) (process : Process n σ) :
    Process n σ × Envelope n :=
  process.send self .mutexAgreement request.message {request.source}

def Process.processRequest (self : ProcessId n) (request : Packet n) (process : Process n σ) :
    Process n σ × List (Envelope n) :=
  if process.canSendAgreement self request then
    let (process, envelope) := process.sendAgreement self request
    (process, [envelope])
  else
    ({ process with
      receivedRequests := Function.update process.receivedRequests request.message
        ((process.receivedRequests request.message).insert request) }, [])

/-- One round of the loop in `releaseMutex`, which walks the set in no particular order. A request
stays in the set when it has been answered, and both locks are held until the set is cleared. -/
def Process.answerDeferred (self : ProcessId n) (request : Packet n) (process : Process n σ) :
    Option (Process n σ × List (Envelope n)) :=
  match process.main with
  | .releasing mutexName unanswered caller =>
      if request ∈ unanswered.packets then
        let (process, envelope) := process.sendAgreement self request
        some ({ process with
          main := .releasing mutexName (unanswered.remove request) caller }, [envelope])
      else none
  | _ => none

/-- The loop is through: the set is cleared, the mutex leaves the queue, and `unlock` gives up
ownership. -/
def Process.released (process : Process n σ) : Option (Process n σ × List (Envelope n)) :=
  match process.main with
  | .releasing mutexName unanswered caller =>
      if unanswered.packets = [] then
        some ({ process with
          receivedRequests := Function.update process.receivedRequests mutexName .empty
          queuedMutexes := Function.update process.queuedMutexes mutexName none
          owned := Function.update process.owned mutexName false
          main := caller.afterUnlock }, [])
      else none
  | _ => none

def Process.addAgreement (process : Process n σ) (receivedAgreements : PacketSet n)
    (agreement : Packet n) : Except DispatchError (PacketSet n) :=
  if (process.queuedMutexes agreement.message).isSome then
    .ok (receivedAgreements.insert agreement)
  else .error .notInterested

/-- The agreement callback works on the locals of the `acquireMutex` that subscribed it. -/
def MainThread.collect (mutexName : MutexName)
    (add : PacketSet n → Except DispatchError (PacketSet n)) :
    MainThread n σ → Except DispatchError (MainThread n σ)
  | .queueing name subscriptionId receivedAgreements caller =>
      if name = mutexName then
        (add receivedAgreements).map (.queueing name subscriptionId · caller)
      else .ok (.queueing name subscriptionId receivedAgreements caller)
  | .collecting name subscriptionId receivedAgreements caller =>
      if name = mutexName then
        (add receivedAgreements).map (.collecting name subscriptionId · caller)
      else .ok (.collecting name subscriptionId receivedAgreements caller)
  | main => .ok main

def Process.receiveAgreement (mutexName : MutexName) (agreement : Packet n)
    (process : Process n σ) : Except DispatchError (Process n σ) :=
  (process.main.collect mutexName (process.addAgreement · agreement)).map
    ({ process with main := · })

end DistributedMonitor
