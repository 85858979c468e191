import DistributedMonitor.Subscriptions

/-! Everything a dispatch can do, read off the subscriptions once. -/

namespace DistributedMonitor
open Library

variable {n : ℕ} {σ : Type} {permanent : List (SubscriptionId × Subscription)}
  {process : Process n σ} {serialization : Serialization σ} {self : ProcessId n}
  {packet : Packet n} {setup : Setup n σ} {p : ProcessId n}

theorem dispatch_sync (wf : process.WellFormed (setup.permanentSubscriptions p))
    (sync : packet.messageType = .sync) :
    process.dispatch serialization self packet =
      (do let (process', sent, anyCallbackInvoked) ← runCallbacks serialization self packet
            ((setup.monitors p).map .sync) process
          if anyCallbackInvoked then return ({ process' with receiving := .listening }, sent)
          else .error .noCallbackInvoked) := by
  have listeners := listeners_eq wf packet.messageType
  rw [if_pos sync] at listeners
  simp only [Process.listeners] at listeners
  rw [Process.dispatch, runCallbacks_filter, listeners]

theorem runCallbacks_sync {monitors : List MonitorName} (sync : packet.messageType = .sync)
    {process' : Process n σ} {sent : List (Envelope n)} {invoked : Bool}
    (ran : runCallbacks serialization self packet (monitors.map .sync) process =
      .ok (process', sent, invoked)) :
    sent = [] ∧ process' = { process with state := process'.state } ∧
      ∀ name, process'.state name ≠ process.state name → ∃ monitor ∈ monitors, monitor.1 = name ∧
        extractMutexName packet.message = some name ∧
        ∃ data, extractSerializedData packet.message = some data := by
  induction monitors generalizing process process' sent invoked with
  | nil =>
    cases ran
    exact ⟨rfl, rfl, fun name changed => absurd rfl changed⟩
  | cons monitor rest ih =>
    simp only [List.map_cons, runCallbacks, Subscription.accepts, if_pos sync] at ran
    cases extracted : extractMutexName packet.message with
    | none => simp [extracted, bind, Except.bind] at ran
    | some name =>
      by_cases accepted : name = monitor.1
      · cases read : extractSerializedData packet.message with
        | none => simp [extracted, accepted, Subscription.callback, read, bind, Except.bind] at ran
        | some data =>
          simp only [extracted, accepted, decide_true, if_true, Subscription.callback, read, bind,
            Except.bind] at ran
          split at ran
          next error failed => cases ran
          next result outcome =>
            obtain ⟨final, more, last⟩ := result
            cases ran
            obtain ⟨rfl, same, changed⟩ := ih outcome
            refine ⟨rfl, ?_, fun other differs => ?_⟩
            · rw [same]
              rfl
            · by_cases mine : other = monitor.1
              · exact ⟨monitor, List.mem_cons_self .., mine.symm, by rw [mine, ← accepted, ← extracted],
                  data, rfl⟩
              · have kept : (process.restore serialization monitor data).state other =
                    process.state other := by
                  simp [Process.restore, mine]
                obtain ⟨found, member, named, matched, -⟩ := changed other (by rwa [kept])
                exact ⟨found, List.mem_cons_of_mem _ member, named, extracted.symm.trans matched,
                  data, rfl⟩
      · simp only [extracted, accepted, decide_false, bind, Except.bind, Bool.false_eq_true,
          if_false] at ran
        obtain ⟨quiet, same, changed⟩ := ih ran
        exact ⟨quiet, same, fun other differs =>
          (changed other differs).imp fun found facts => ⟨List.mem_cons_of_mem _ facts.1,
            extracted ▸ facts.2⟩⟩

inductive Dispatched (self : ProcessId n) (packet : Packet n) (monitors : List MonitorName)
    (process : Process n σ) : Process n σ → List (Envelope n) → Prop where
  | agreed (type : packet.messageType = .mutexRequest)
      (registered : packet.message ∈ process.registeredMutexes)
      (allowed : process.canSendAgreement self packet = true) :
      Dispatched self packet monitors process
        { process with
          currentLamportTime := process.currentLamportTime + 1
          receiving := .listening }
        [⟨⟨process.currentLamportTime + 1, self, .mutexAgreement, packet.message⟩,
          {packet.source}⟩]
  | deferred (type : packet.messageType = .mutexRequest)
      (registered : packet.message ∈ process.registeredMutexes)
      (refused : process.canSendAgreement self packet = false) :
      Dispatched self packet monitors process
        { process with
          receivedRequests := Function.update process.receivedRequests packet.message
            ((process.receivedRequests packet.message).insert packet)
          receiving := .listening } []
  | early {id : SubscriptionId} {received : PacketSet n} {caller : Caller σ}
      (type : packet.messageType = .mutexAgreement)
      (main : process.main = .queueing packet.message id received caller)
      (queued : (process.queuedMutexes packet.message).isSome) :
      Dispatched self packet monitors process
        { process with
          main := .queueing packet.message id (received.insert packet) caller
          receiving := .listening } []
  | counted {id : SubscriptionId} {received : PacketSet n} {caller : Caller σ}
      (type : packet.messageType = .mutexAgreement)
      (main : process.main = .collecting packet.message id received caller)
      (queued : (process.queuedMutexes packet.message).isSome) :
      Dispatched self packet monitors process
        { process with
          main := .collecting packet.message id (received.insert packet) caller
          receiving := .listening } []
  | waiting (type : packet.messageType = .condWait)
      (registered : packet.message ∈ process.registeredCVs) :
      Dispatched self packet monitors process
        { process.recordWait packet with receiving := .listening } []
  | ended (type : packet.messageType = .condWaitEnd)
      (registered : packet.message ∈ process.registeredCVs) :
      Dispatched self packet monitors process
        { process with
          currentLamportTime := process.currentLamportTime + 1
          conditionalWaits := process.conditionalWaits.erase packet.message
          receiving := .listening }
        [⟨⟨process.currentLamportTime + 1, self, .condWaitEndConfirm, packet.message⟩,
          {packet.source}⟩]
  | notified {call : WaitCall σ} (type : packet.messageType = .condNotify)
      (waits : process.main.waitCall = some call) (named : packet.message = call.condName) :
      Dispatched self packet monitors process
        { process with
          main := process.main.signal packet.message
          receiving := .listening } []
  | confirmed {call : WaitCall σ} (type : packet.messageType = .condWaitEndConfirm)
      (ends : process.main.endingCall = some call) (named : packet.message = call.condName) :
      Dispatched self packet monitors process
        { process with
          main := process.main.confirm packet.message packet
          receiving := .listening } []
  | synced {state : MutexName → σ} (type : packet.messageType = .sync)
      (changed : ∀ name, state name ≠ process.state name → ∃ monitor ∈ monitors,
        monitor.1 = name ∧ extractMutexName packet.message = some name ∧
        ∃ data, extractSerializedData packet.message = some data) :
      Dispatched self packet monitors process
        { process with
          state := state
          receiving := .listening } []

theorem deliver_ok {subscription : Subscription} {outcome : Process n σ × List (Envelope n)}
    (delivered : subscription.deliver serialization self packet process = .ok outcome) :
    subscription.accepts process packet = .ok true ∧ ∃ process',
      subscription.callback serialization self packet process = .ok (process', outcome.2) ∧
      outcome.1 = { process' with receiving := .listening } := by
  rw [Subscription.deliver] at delivered
  cases accepted : subscription.accepts process packet with
  | error error => simp [accepted, bind, Except.bind] at delivered
  | ok accepts =>
    cases accepts with
    | false => simp [accepted, bind, Except.bind] at delivered
    | true =>
      cases called : subscription.callback serialization self packet process with
      | error error => simp [accepted, called, bind, Except.bind] at delivered
      | ok result =>
        simp only [accepted, called, bind, Except.bind, if_true, pure, Except.pure,
          Except.ok.injEq] at delivered
        exact ⟨rfl, result.1, by rw [← delivered], by rw [← delivered]⟩

theorem dispatched_by {monitors : List MonitorName} {subscription : Subscription}
    {process' : Process n σ} {sent : List (Envelope n)}
    (listener : process.listener packet.messageType = some subscription)
    (accepted : subscription.accepts process packet = .ok true)
    (called : subscription.callback serialization self packet process = .ok (process', sent)) :
    Dispatched self packet monitors process { process' with receiving := .listening } sent := by
  cases type : packet.messageType with
  | mutexRequest =>
    simp only [type, Process.listener, Option.some.injEq] at listener
    subst listener
    simp only [Subscription.accepts, type, true_and, Except.ok.injEq, decide_eq_true_eq] at accepted
    simp only [Subscription.callback, Process.processRequest, Except.ok.injEq] at called
    cases allowed : process.canSendAgreement self packet with
    | true =>
      simp only [allowed, if_true, Prod.mk.injEq] at called
      obtain ⟨rfl, rfl⟩ := called
      exact .agreed type accepted allowed
    | false =>
      simp only [allowed, Bool.false_eq_true, if_false, Prod.mk.injEq] at called
      obtain ⟨rfl, rfl⟩ := called
      exact .deferred type accepted allowed
  | mutexAgreement =>
    simp only [type, Process.listener, Option.map_eq_some_iff] at listener
    obtain ⟨mutexName, acquiring, rfl⟩ := listener
    simp only [Subscription.accepts, type, true_and, Except.ok.injEq, decide_eq_true_eq] at accepted
    subst accepted
    simp only [Subscription.callback, Process.receiveAgreement, Process.addAgreement, bind,
      Except.bind, pure, Except.pure] at called
    by_cases queued : (process.queuedMutexes packet.message).isSome = true
    · cases main : process.main with
      | queueing name id received caller =>
        simp only [main, MainThread.acquiring, Option.some.injEq] at acquiring
        subst acquiring
        simp only [main, MainThread.collect, queued, if_true, Except.map, Except.ok.injEq,
          Prod.mk.injEq] at called
        obtain ⟨rfl, rfl⟩ := called
        exact .early type main queued
      | collecting name id received caller =>
        simp only [main, MainThread.acquiring, Option.some.injEq] at acquiring
        subst acquiring
        simp only [main, MainThread.collect, queued, if_true, Except.map, Except.ok.injEq,
          Prod.mk.injEq] at called
        obtain ⟨rfl, rfl⟩ := called
        exact .counted type main queued
      | _ => simp [main, MainThread.acquiring] at acquiring
    · cases main : process.main with
      | queueing name id received caller | collecting name id received caller =>
        simp only [main, MainThread.acquiring, Option.some.injEq] at acquiring
        subst acquiring
        simp [main, MainThread.collect, queued, Except.map] at called
      | _ => simp [main, MainThread.acquiring] at acquiring
  | condWait =>
    simp only [type, Process.listener, Option.some.injEq] at listener
    subst listener
    simp only [Subscription.accepts, type, true_and, Except.ok.injEq, decide_eq_true_eq] at accepted
    simp only [Subscription.callback, Except.ok.injEq, Prod.mk.injEq] at called
    obtain ⟨rfl, rfl⟩ := called
    exact .waiting type accepted
  | condWaitEnd =>
    simp only [type, Process.listener, Option.some.injEq] at listener
    subst listener
    simp only [Subscription.accepts, type, true_and, Except.ok.injEq, decide_eq_true_eq] at accepted
    simp only [Subscription.callback, Except.ok.injEq, Prod.mk.injEq] at called
    obtain ⟨rfl, rfl⟩ := called
    exact .ended type accepted
  | condWaitEndConfirm =>
    simp only [type, Process.listener, Option.map_eq_some_iff] at listener
    obtain ⟨call, ends, rfl⟩ := listener
    simp only [Subscription.accepts, type, true_and, Except.ok.injEq, decide_eq_true_eq] at accepted
    simp only [Subscription.callback, Except.ok.injEq, Prod.mk.injEq] at called
    obtain ⟨rfl, rfl⟩ := called
    rw [← accepted]
    exact .confirmed type ends accepted
  | condNotify =>
    simp only [type, Process.listener, Option.map_eq_some_iff] at listener
    obtain ⟨call, waits, rfl⟩ := listener
    simp only [Subscription.accepts, type, true_and, Except.ok.injEq, decide_eq_true_eq] at accepted
    simp only [Subscription.callback, Except.ok.injEq, Prod.mk.injEq] at called
    obtain ⟨rfl, rfl⟩ := called
    rw [← accepted]
    exact .notified type waits accepted
  | sync => simp [type, Process.listener] at listener

theorem dispatched (wf : process.WellFormed (setup.permanentSubscriptions p))
    {outcome : Process n σ × List (Envelope n)}
    (dispatches : process.dispatch serialization self packet = .ok outcome) :
    Dispatched self packet (setup.monitors p) process outcome.1 outcome.2 := by
  by_cases sync : packet.messageType = .sync
  · rw [dispatch_sync wf sync] at dispatches
    cases ran : runCallbacks serialization self packet ((setup.monitors p).map .sync) process with
    | error error => simp [ran, bind, Except.bind] at dispatches
    | ok result =>
      obtain ⟨process', sent, invoked⟩ := result
      obtain ⟨rfl, same, changed⟩ := runCallbacks_sync sync ran
      cases invoked with
      | false => simp [ran, bind, Except.bind] at dispatches
      | true =>
        simp only [ran, bind, Except.bind, if_true, pure, Except.pure, Except.ok.injEq]
          at dispatches
        rw [← dispatches, same]
        exact .synced sync changed
  · rw [dispatch_eq wf sync] at dispatches
    cases listener : process.listener packet.messageType with
    | none => simp [listener] at dispatches
    | some subscription =>
      simp only [listener] at dispatches
      obtain ⟨accepted, process', called, result⟩ := deliver_ok dispatches
      obtain ⟨final, sent⟩ := outcome
      simp only at called result
      subst result
      exact dispatched_by listener accepted called

end DistributedMonitor
