import DistributedMonitor.System

/-! What the subscriptions of a process are at each position of its main thread, and
with it what a dispatch does: at most one callback outside the monitors accepts a packet. -/

namespace DistributedMonitor
open Library

variable {n : ℕ} {σ : Type}

def WaitCall.subscriptions (call : WaitCall σ) : List (SubscriptionId × Subscription) :=
  [(call.notifySubscriptionId, .condNotify call.condName)]

def Caller.subscriptions : Caller σ → List (SubscriptionId × Subscription)
  | .program => []
  | .wait call => call.subscriptions

def MainThread.subscriptions : MainThread n σ → List (SubscriptionId × Subscription)
  | .running | .notifying _ _ | .saved _ _ | .synced _ => []
  | .queueing mutexName id _ caller | .collecting mutexName id _ caller =>
      caller.subscriptions ++ [(id, .mutexAgreement mutexName)]
  | .releasing _ _ caller => caller.subscriptions
  | .announcing call | .checking call | .blocked call _ | .stopped call => call.subscriptions
  | .ending call id _ | .confirming call id _ =>
      call.subscriptions ++ [(id, .condWaitEndConfirm call.condName)]

def Caller.Locks (mutexName : MutexName) : Caller σ → Prop
  | .program => True
  | .wait call => call.mutex = mutexName

/-- The answers collected so far are all to the call that collects them, the requests still to be
answered are for the mutex that is released, and a lock taken inside a wait is that of the wait's
own mutex. -/
def MainThread.Coherent : MainThread n σ → Prop
  | .queueing mutexName _ received caller | .collecting mutexName _ received caller =>
      received.About .mutexAgreement mutexName ∧ caller.Locks mutexName
  | .releasing mutexName unanswered caller =>
      unanswered.About .mutexRequest mutexName ∧ caller.Locks mutexName
  | .ending call _ received | .confirming call _ received =>
      received.About .condWaitEndConfirm call.condName
  | _ => True

structure Process.WellFormed (permanent : List (SubscriptionId × Subscription))
    (process : Process n σ) : Prop where
  subscriptions : process.subscriptions = permanent ++ process.main.subscriptions
  distinct : (process.subscriptions.map (·.1)).Nodup
  bounded : ∀ entry ∈ process.subscriptions, entry.1 < process.subscriptionSeqNo
  requests : ∀ mutexName, (process.receivedRequests mutexName).About .mutexRequest mutexName
  coherent : process.main.Coherent

variable {permanent : List (SubscriptionId × Subscription)} {process : Process n σ}

namespace Process.WellFormed

theorem of_same (wf : process.WellFormed permanent) {process' : Process n σ}
    (subscriptions : process'.subscriptions = process.subscriptions)
    (seqNo : process'.subscriptionSeqNo = process.subscriptionSeqNo)
    (requests : ∀ mutexName, (process'.receivedRequests mutexName).About .mutexRequest mutexName)
    (active : process'.main.subscriptions = process.main.subscriptions)
    (coherent : process'.main.Coherent) : process'.WellFormed permanent where
  subscriptions := by rw [subscriptions, active, wf.subscriptions]
  distinct := by rw [subscriptions]; exact wf.distinct
  bounded := by rw [subscriptions, seqNo]; exact wf.bounded
  requests := requests
  coherent := coherent

theorem subscribe (wf : process.WellFormed permanent) {subscription : Subscription}
    {main : MainThread n σ}
    (active : main.subscriptions =
      process.main.subscriptions ++ [(process.subscriptionSeqNo, subscription)])
    (coherent : main.Coherent) :
    { process.subscribe subscription with main := main }.WellFormed permanent where
  subscriptions := by
    simp only [Process.subscribe, active, wf.subscriptions, List.append_assoc]
  distinct := by
    simp only [Process.subscribe, List.map_append, List.map_cons, List.map_nil]
    refine List.nodup_append.2 ⟨wf.distinct, List.nodup_singleton _, ?_⟩
    intro id old last fresh same
    obtain ⟨entry, member, rfl⟩ := List.mem_map.1 old
    rw [List.mem_singleton.1 fresh] at same
    exact absurd same (wf.bounded entry member).ne
  bounded := by
    intro entry member
    simp only [Process.subscribe] at member ⊢
    rcases List.mem_append.1 member with old | fresh
    · exact (wf.bounded entry old).trans (Nat.lt_succ_self _)
    · rw [List.mem_singleton.1 fresh]
      exact Nat.lt_succ_self _
  requests := wf.requests
  coherent := coherent

theorem unsubscribe (wf : process.WellFormed permanent) {id : SubscriptionId}
    {subscription : Subscription} {rest : List (SubscriptionId × Subscription)}
    {main : MainThread n σ}
    (active : process.main.subscriptions = rest ++ [(id, subscription)])
    (remaining : main.subscriptions = rest) (coherent : main.Coherent) :
    { process.unsubscribe id with main := main }.WellFormed permanent := by
  have split : process.subscriptions = (permanent ++ rest) ++ [(id, subscription)] := by
    rw [wf.subscriptions, active, List.append_assoc]
  have unique : ∀ entry ∈ permanent ++ rest, entry.1 ≠ id := by
    have distinct := wf.distinct
    rw [split, List.map_append] at distinct
    intro entry member same
    exact (List.nodup_append.1 distinct).2.2 entry.1 (List.mem_map_of_mem member) id
      (by simp) same
  have kept : process.subscriptions.filter (fun entry => decide (entry.1 ≠ id)) =
      permanent ++ rest := by
    rw [split, List.filter_append, List.filter_eq_self.2 (by simpa using unique)]
    simp
  exact {
    subscriptions := by simp only [Process.unsubscribe, kept, remaining]
    distinct := wf.distinct.sublist (List.filter_sublist.map _)
    bounded := fun entry member => wf.bounded entry (List.mem_filter.1 member).1
    requests := wf.requests
    coherent := coherent }

end Process.WellFormed

def Subscription.listensTo : Subscription → MessageType
  | .mutexRequest => .mutexRequest
  | .condWait => .condWait
  | .condWaitEnd => .condWaitEnd
  | .sync _ => .sync
  | .mutexAgreement _ => .mutexAgreement
  | .condNotify _ => .condNotify
  | .condWaitEndConfirm _ => .condWaitEndConfirm

variable {serialization : Serialization σ} {self : ProcessId n} {packet : Packet n}

theorem accepts_of_ne {subscription : Subscription} (process : Process n σ)
    (other : subscription.listensTo ≠ packet.messageType) :
    subscription.accepts process packet = .ok false := by
  have away := Ne.symm other
  cases subscription <;> simp only [Subscription.listensTo] at away <;>
    simp [Subscription.accepts, away]

theorem runCallbacks_filter (subscriptions : List Subscription) (process : Process n σ) :
    runCallbacks serialization self packet subscriptions process =
      runCallbacks serialization self packet
        (subscriptions.filter (·.listensTo = packet.messageType)) process := by
  induction subscriptions generalizing process with
  | nil => rfl
  | cons subscription rest ih =>
    by_cases listens : subscription.listensTo = packet.messageType
    · simp only [List.filter_cons, listens, decide_true, if_true, runCallbacks, ih]
    · simp only [List.filter_cons, listens, decide_false, runCallbacks,
        accepts_of_ne process listens, ih]
      rfl

def Process.listeners (process : Process n σ) (messageType : MessageType) : List Subscription :=
  (process.subscriptions.map (·.2)).filter (·.listensTo = messageType)

theorem dispatch_nobody (nobody : process.listeners packet.messageType = []) :
    process.dispatch serialization self packet = .error .noCallbackInvoked := by
  rw [Process.dispatch, runCallbacks_filter]
  simp only [Process.listeners] at nobody
  rw [nobody]
  rfl

def Subscription.deliver (serialization : Serialization σ) (self : ProcessId n)
    (packet : Packet n) (process : Process n σ) (subscription : Subscription) :
    Except DispatchError (Process n σ × List (Envelope n)) := do
  if ← subscription.accepts process packet then
    let (process', sent) ← subscription.callback serialization self packet process
    return ({ process' with receiving := .listening }, sent)
  else .error .noCallbackInvoked

theorem dispatch_single {subscription : Subscription}
    (single : process.listeners packet.messageType = [subscription]) :
    process.dispatch serialization self packet =
      subscription.deliver serialization self packet process := by
  rw [Process.dispatch, runCallbacks_filter, Subscription.deliver]
  simp only [Process.listeners] at single
  rw [single]
  simp only [runCallbacks]
  cases subscription.accepts process packet with
  | error error => rfl
  | ok accepted =>
    cases accepted with
    | false => rfl
    | true =>
      cases subscription.callback serialization self packet process with
      | error error => rfl
      | ok outcome => simp [Except.bind, bind, pure, Except.pure]

def Setup.permanentSubscriptions (setup : Setup n σ) (p : ProcessId n) : List (SubscriptionId × Subscription) :=
  (List.range (setup.subscriptions p).length).zip (setup.subscriptions p)

variable {setup : Setup n σ} {p : ProcessId n}

theorem permanent_subscriptions : (setup.permanentSubscriptions p).map (·.2) = setup.subscriptions p := by
  rw [Setup.permanentSubscriptions]
  exact List.map_snd_zip (by simp)

theorem listeners_wellFormed (wf : process.WellFormed (setup.permanentSubscriptions p))
    (messageType : MessageType) :
    process.listeners messageType =
      (setup.subscriptions p).filter (·.listensTo = messageType) ++
        (process.main.subscriptions.map (·.2)).filter (·.listensTo = messageType) := by
  rw [Process.listeners, wf.subscriptions, List.map_append, permanent_subscriptions,
    List.filter_append]

theorem permanent_listeners (messageType : MessageType) :
    (setup.subscriptions p).filter (·.listensTo = messageType) = match messageType with
      | .mutexRequest => [.mutexRequest]
      | .condWait => [.condWait]
      | .condWaitEnd => [.condWaitEnd]
      | .sync => (setup.monitors p).map .sync
      | _ => [] := by
  have syncs : ((setup.monitors p).map Subscription.sync).filter (·.listensTo = messageType) =
      if messageType = .sync then (setup.monitors p).map .sync else [] := by
    split_ifs with sync
    · refine List.filter_eq_self.2 fun subscription member => ?_
      obtain ⟨monitor, -, rfl⟩ := List.mem_map.1 member
      exact decide_eq_true sync.symm
    · refine List.filter_eq_nil_iff.2 fun subscription member => ?_
      obtain ⟨monitor, -, rfl⟩ := List.mem_map.1 member
      exact fun same => sync (of_decide_eq_true same).symm
  rw [Setup.subscriptions, List.filter_append, syncs]
  cases messageType <;> rfl

def Caller.waitCall : Caller σ → Option (WaitCall σ)
  | .program => none
  | .wait call => some call

def MainThread.waitCall : MainThread n σ → Option (WaitCall σ)
  | .running | .notifying _ _ | .saved _ _ | .synced _ => none
  | .queueing _ _ _ caller | .collecting _ _ _ caller | .releasing _ _ caller => caller.waitCall
  | .announcing call | .checking call | .blocked call _ | .stopped call
  | .ending call _ _ | .confirming call _ _ => some call

def MainThread.acquiring : MainThread n σ → Option MutexName
  | .queueing mutexName _ _ _ | .collecting mutexName _ _ _ => some mutexName
  | _ => none

def MainThread.endingCall : MainThread n σ → Option (WaitCall σ)
  | .ending call _ _ | .confirming call _ _ => some call
  | _ => none

theorem main_listeners (main : MainThread n σ) (messageType : MessageType) :
    (main.subscriptions.map (·.2)).filter (·.listensTo = messageType) = match messageType with
      | .mutexAgreement => (main.acquiring.map Subscription.mutexAgreement).toList
      | .condNotify => (main.waitCall.map (Subscription.condNotify ·.condName)).toList
      | .condWaitEndConfirm =>
          (main.endingCall.map (Subscription.condWaitEndConfirm ·.condName)).toList
      | _ => [] := by
  cases main with
  | queueing _ _ _ caller | collecting _ _ _ caller | releasing _ unanswered caller =>
    cases caller <;> cases messageType <;> rfl
  | _ => cases messageType <;> rfl

/-- The one listener to a type of packet, if there is one; SYNC is left to the monitors. -/
def Process.listener (process : Process n σ) : MessageType → Option Subscription
  | .mutexRequest => some .mutexRequest
  | .condWait => some .condWait
  | .condWaitEnd => some .condWaitEnd
  | .mutexAgreement => process.main.acquiring.map .mutexAgreement
  | .condNotify => process.main.waitCall.map (.condNotify ·.condName)
  | .condWaitEndConfirm => process.main.endingCall.map (.condWaitEndConfirm ·.condName)
  | .sync => none

theorem listeners_eq (wf : process.WellFormed (setup.permanentSubscriptions p))
    (messageType : MessageType) : process.listeners messageType =
      if messageType = .sync then (setup.monitors p).map .sync
      else (process.listener messageType).toList := by
  rw [listeners_wellFormed wf, permanent_listeners, main_listeners]
  cases messageType <;> simp [Process.listener]

/-- Outside the monitors a packet goes to the one listener, or is an error. -/
theorem dispatch_eq (wf : process.WellFormed (setup.permanentSubscriptions p))
    (notSync : packet.messageType ≠ .sync) :
    process.dispatch serialization self packet =
      match process.listener packet.messageType with
      | none => .error .noCallbackInvoked
      | some subscription => subscription.deliver serialization self packet process := by
  have listeners := listeners_eq wf packet.messageType
  rw [if_neg notSync] at listeners
  cases listener : process.listener packet.messageType with
  | none => exact dispatch_nobody (by rw [listeners, listener]; rfl)
  | some subscription => exact dispatch_single (by rw [listeners, listener]; rfl)

end DistributedMonitor
