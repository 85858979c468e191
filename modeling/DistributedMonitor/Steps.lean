import DistributedMonitor.Dispatched

/-! Everything one step can do. A step of the system is a receive, the rewriting of
a stamp, a dispatch or a step of a main thread, and each is laid open here once. -/

namespace DistributedMonitor
open Library

variable {n : ℕ} {σ : Type}

def Action.configures : Action n σ → Bool
  | .registerMutex _ | .unregisterMutex _ | .registerCV _ | .unregisterCV _ => true
  | _ => false

inductive MainStep (serialization : Serialization σ) (self : ProcessId n) (process : Process n σ) :
    Action n σ → Process n σ → List (Envelope n) → Prop where
  | configured {action : Action n σ} {mutexes : Finset MutexName} {cvs : Finset CondName}
      (called : action.configures = true) (main : process.main = .running)
      (kept : ∀ mutexName ∈ process.registeredMutexes,
        action ≠ .unregisterMutex mutexName → mutexName ∈ mutexes) :
      MainStep serialization self process action
        { process with registeredMutexes := mutexes, registeredCVs := cvs } []
  | assign {mutexName : MutexName} {state : σ} (main : process.main = .running) :
      MainStep serialization self process (.assign mutexName state)
        { process with state := Function.update process.state mutexName state } []
  | lock {mutexName : MutexName} (main : process.main = .running) :
      MainStep serialization self process (.lock mutexName)
        (process.acquireMutex mutexName .program) []
  | unlock {mutexName : MutexName} (main : process.main = .running) :
      MainStep serialization self process (.unlock mutexName) (process.unlock mutexName .program) []
  | wait {condName : CondName} {mutex : MutexName} {predicate : σ → Bool}
      (main : process.main = .running) (owned : process.owned mutex = true) :
      MainStep serialization self process (.wait condName mutex predicate)
        { process.subscribe (.condNotify condName) with
          main := .announcing ⟨condName, mutex, predicate, process.subscriptionSeqNo⟩ } []
  | notify {action : Action n σ} {condName : CondName}
      {table : AList (fun _ : CondName => StampedSet n)} {main' : MainThread n σ}
      (called : action = .notifyOne condName ∨ action = .notifyAll condName)
      (main : process.main = .running)
      (same : ∀ name, (table.lookup name).getD .empty = process.waits name)
      (picked : main' = process.main ∨ ∃ recipients, main' = .notifying condName recipients ∧
        ∀ p ∈ recipients, p ∈ (process.waits condName).senders) :
      MainStep serialization self process action
        { process with conditionalWaits := table, main := main' } []
  | leave {monitor : MonitorName} (main : process.main = .running) :
      MainStep serialization self process (.leave monitor)
        (process.leave serialization monitor) []
  | queue {mutexName : MutexName} {id : SubscriptionId} {received : PacketSet n}
      {caller : Caller σ} (main : process.main = .queueing mutexName id received caller) :
      MainStep serialization self process .queue
        { process with
          currentLamportTime := process.currentLamportTime + 1
          queuedMutexes := Function.update process.queuedMutexes mutexName
            (some (process.currentLamportTime + 1))
          main := .collecting mutexName id received caller }
        [⟨⟨process.currentLamportTime + 1, self, .mutexRequest, mutexName⟩, otherProcesses self⟩]
  | acquired {mutexName : MutexName} {id : SubscriptionId} {received : PacketSet n}
      {caller : Caller σ} (main : process.main = .collecting mutexName id received caller)
      (complete : received.size = n - 1) :
      MainStep serialization self process .acquired
        { process.unsubscribe id with
          owned := Function.update process.owned mutexName true
          main := caller.afterLock } []
  | answerDeferred {request : Packet n} {mutexName : MutexName} {unanswered : PacketSet n}
      {caller : Caller σ} (main : process.main = .releasing mutexName unanswered caller)
      (waiting : request ∈ unanswered.packets) :
      MainStep serialization self process (.answerDeferred request)
        { process with
          currentLamportTime := process.currentLamportTime + 1
          main := .releasing mutexName (unanswered.remove request) caller }
        [⟨⟨process.currentLamportTime + 1, self, .mutexAgreement, request.message⟩,
          {request.source}⟩]
  | released {mutexName : MutexName} {unanswered : PacketSet n} {caller : Caller σ}
      (main : process.main = .releasing mutexName unanswered caller)
      (through : unanswered.packets = []) :
      MainStep serialization self process .released
        { process with
          receivedRequests := Function.update process.receivedRequests mutexName .empty
          queuedMutexes := Function.update process.queuedMutexes mutexName none
          owned := Function.update process.owned mutexName false
          main := caller.afterUnlock } []
  | announce {call : WaitCall σ} (main : process.main = .announcing call) :
      MainStep serialization self process .announce
        { process with
          currentLamportTime := process.currentLamportTime + 1
          main := .checking call }
        [⟨⟨process.currentLamportTime + 1, self, .condWait, call.condName⟩, otherProcesses self⟩]
  | stop {call : WaitCall σ} (main : process.main = .checking call)
      (holds : call.predicate (process.state call.mutex) = true) :
      MainStep serialization self process .evaluate { process with main := .stopped call } []
  | retry {call : WaitCall σ} (main : process.main = .checking call) :
      MainStep serialization self process .evaluate
        (process.unlock call.mutex (.wait call)) []
  | wake {call : WaitCall σ} {signalled : Bool} (main : process.main = .blocked call signalled) :
      MainStep serialization self process .wake
        (process.acquireMutex call.mutex (.wait call)) []
  | subscribeConfirmations {call : WaitCall σ} (main : process.main = .stopped call) :
      MainStep serialization self process .subscribeConfirmations
        { process.subscribe (.condWaitEndConfirm call.condName) with
          main := .ending call process.subscriptionSeqNo .empty } []
  | announceEnd {call : WaitCall σ} {id : SubscriptionId} {received : PacketSet n}
      (main : process.main = .ending call id received) :
      MainStep serialization self process .announceEnd
        { process with
          currentLamportTime := process.currentLamportTime + 1
          main := .confirming call id received }
        [⟨⟨process.currentLamportTime + 1, self, .condWaitEnd, call.condName⟩,
          otherProcesses self⟩]
  | waitReturns {call : WaitCall σ} {id : SubscriptionId} {received : PacketSet n}
      (main : process.main = .confirming call id received) (complete : received.size = n - 1) :
      MainStep serialization self process .waitReturns
        { (process.unsubscribe call.notifySubscriptionId).unsubscribe id with main := .running } []
  | sendNotify {condName : CondName} {recipients : Finset (ProcessId n)}
      (main : process.main = .notifying condName recipients) :
      MainStep serialization self process .sendNotify
        { process with
          currentLamportTime := process.currentLamportTime + 1
          main := .running }
        [⟨⟨process.currentLamportTime + 1, self, .condNotify, condName⟩, recipients⟩]
  | sendSync {monitor : MonitorName} {serializedState : ByteString}
      (main : process.main = .saved monitor serializedState) :
      MainStep serialization self process .sendSync
        { process with
          currentLamportTime := process.currentLamportTime + 1
          main := .synced monitor }
        [⟨⟨process.currentLamportTime + 1, self, .sync, packSyncMessage monitor.1 serializedState⟩,
          otherProcesses self⟩]
  | unlockMonitor {monitor : MonitorName} (main : process.main = .synced monitor) :
      MainStep serialization self process .unlockMonitor
        (process.unlock monitor.1 .program) []

variable {serialization : Serialization σ} {self : ProcessId n} {process : Process n σ}
  {action : Action n σ}

theorem call_some {result : Process n σ} {outcome : Outcome n σ}
    (called : process.call result = some outcome) :
    process.main = .running ∧ outcome = (result, []) := by
  unfold Process.call at called
  split at called
  next running => exact ⟨running, (Option.some.inj called).symm⟩
  next busy => cases called

theorem lookup_indexWaits (process : Process n σ) (condName name : CondName) :
    ((process.indexWaits condName).lookup name).getD .empty = process.waits name := by
  unfold Process.indexWaits Process.waits
  split_ifs with present
  · rfl
  · by_cases same : name = condName
    · subst same
      rw [AList.lookup_insert, AList.lookup_eq_none.2 present]
      rfl
    · rw [AList.lookup_insert_ne same]

theorem mainStep_notifyOne {condName : CondName} (main : process.main = .running) :
    MainStep serialization self process (.notifyOne condName) (process.notifyOne condName) [] := by
  unfold Process.notifyOne
  cases listed : (process.waits condName).packets with
  | nil =>
    exact .notify (.inl rfl) main (lookup_indexWaits process condName) (.inl rfl)
  | cons first rest =>
    refine .notify (.inl rfl) main (lookup_indexWaits process condName)
      (.inr ⟨{first.source}, rfl, fun p member => ?_⟩)
    rw [Finset.mem_singleton.1 member, StampedSet.senders, listed]
    exact List.mem_cons_self ..

theorem mainStep_notifyAll {condName : CondName} (main : process.main = .running) :
    MainStep serialization self process (.notifyAll condName) (process.notifyAll condName) [] := by
  unfold Process.notifyAll
  split_ifs with nobody
  · exact .notify (.inr rfl) main (fun name => rfl) (.inl rfl)
  · exact .notify (.inr rfl) main (lookup_indexWaits process condName)
      (.inr ⟨_, rfl, fun p member => List.mem_toFinset.1 member⟩)

def Action.isMain : Action n σ → Bool
  | .receive _ | .updateTimestamp | .dispatch => false
  | _ => true

theorem mainStep_of_act (isMain : action.isMain = true) {outcome : Outcome n σ}
    (acts : process.act serialization self action = some outcome) :
    MainStep serialization self process action outcome.1 outcome.2 := by
  cases action with
  | receive source => cases isMain
  | updateTimestamp => cases isMain
  | dispatch => cases isMain
  | registerMutex name =>
    obtain ⟨main, rfl⟩ := call_some acts
    exact .configured rfl main fun _ member _ => Finset.mem_insert_of_mem member
  | unregisterMutex name =>
    obtain ⟨main, rfl⟩ := call_some acts
    exact .configured rfl main fun other member differs =>
      Finset.mem_erase.2 ⟨fun same => differs (by rw [same]), member⟩
  | registerCV name =>
    obtain ⟨main, rfl⟩ := call_some acts
    exact .configured rfl main fun _ member _ => member
  | unregisterCV name =>
    obtain ⟨main, rfl⟩ := call_some acts
    exact .configured rfl main fun _ member _ => member
  | assign name state =>
    obtain ⟨main, rfl⟩ := call_some acts
    exact .assign main
  | lock name =>
    obtain ⟨main, rfl⟩ := call_some acts
    exact .lock main
  | unlock name =>
    obtain ⟨main, rfl⟩ := call_some acts
    exact .unlock main
  | wait condName mutex predicate =>
    obtain ⟨_, called, waits⟩ := Option.bind_eq_some_iff.1 acts
    obtain ⟨main, -⟩ := call_some called
    unfold Process.wait at waits
    split at waits
    next owned => cases waits; exact .wait main owned
    next => cases waits
  | notifyOne name =>
    obtain ⟨main, rfl⟩ := call_some acts
    exact mainStep_notifyOne main
  | notifyAll name =>
    obtain ⟨main, rfl⟩ := call_some acts
    exact mainStep_notifyAll main
  | leave monitor =>
    obtain ⟨main, rfl⟩ := call_some acts
    exact .leave main
  | queue =>
    simp only [Process.act, Process.queue] at acts
    split at acts
    next name id received caller main => cases acts; exact .queue main
    next => cases acts
  | acquired =>
    simp only [Process.act, Process.acquired, answersComplete, decide_eq_true_eq] at acts
    split at acts
    next name id received caller main =>
      split_ifs at acts with complete
      cases acts
      exact .acquired main complete
    next => cases acts
  | answerDeferred request =>
    simp only [Process.act, Process.answerDeferred] at acts
    split at acts
    next name unanswered caller main =>
      split_ifs at acts with waiting
      cases acts
      exact .answerDeferred main waiting
    next => cases acts
  | released =>
    simp only [Process.act, Process.released] at acts
    split at acts
    next name unanswered caller main =>
      split_ifs at acts with through
      cases acts
      exact .released main through
    next => cases acts
  | announce =>
    simp only [Process.act, Process.announce] at acts
    split at acts
    next call main => cases acts; exact .announce main
    next => cases acts
  | evaluate =>
    simp only [Process.act, Process.evaluate] at acts
    split at acts
    next call main =>
      split_ifs at acts with holds
      · cases acts; exact .stop main holds
      · cases acts; exact .retry main
    next => cases acts
  | wake =>
    simp only [Process.act, Process.wake] at acts
    split at acts
    next call signalled main => cases acts; exact .wake main
    next => cases acts
  | subscribeConfirmations =>
    simp only [Process.act, Process.subscribeConfirmations] at acts
    split at acts
    next call main => cases acts; exact .subscribeConfirmations main
    next => cases acts
  | announceEnd =>
    simp only [Process.act, Process.announceEnd] at acts
    split at acts
    next call id received main => cases acts; exact .announceEnd main
    next => cases acts
  | waitReturns =>
    simp only [Process.act, Process.waitReturns, answersComplete, decide_eq_true_eq] at acts
    split at acts
    next call id received main =>
      split_ifs at acts with complete
      cases acts
      exact .waitReturns main complete
    next => cases acts
  | sendNotify =>
    simp only [Process.act, Process.sendNotify] at acts
    split at acts
    next name recipients main => cases acts; exact .sendNotify main
    next => cases acts
  | sendSync =>
    simp only [Process.act, Process.sendSync] at acts
    split at acts
    next monitor serializedState main => cases acts; exact .sendSync main
    next => cases acts
  | unlockMonitor =>
    simp only [Process.act, Process.unlockMonitor] at acts
    split at acts
    next monitor main => cases acts; exact .unlockMonitor main
    next => cases acts

end DistributedMonitor
