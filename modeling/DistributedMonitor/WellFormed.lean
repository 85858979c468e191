import DistributedMonitor.Steps

/-! Every step keeps the subscriptions in order, so every run has them in order, and
every step of a run is one of the steps laid open before. -/

namespace DistributedMonitor
open Library

variable {n : ℕ} {σ : Type} {permanent : List (SubscriptionId × Subscription)}
  {communicator : Communicator} {serialization : Serialization σ} {self : ProcessId n}
  {process process' : Process n σ} {action : Action n σ} {sent : List (Envelope n)}
  {packet : Packet n} {setup : Setup n σ}

theorem coherent_afterLock (caller : Caller σ) :
    (caller.afterLock : MainThread n σ).Coherent := by
  cases caller <;> trivial

theorem coherent_afterUnlock (caller : Caller σ) :
    (caller.afterUnlock : MainThread n σ).Coherent := by
  cases caller <;> trivial

theorem read_signal {α : Sort*} (read : MainThread n σ → α)
    (blocked : ∀ call first second, read (.blocked call first) = read (.blocked call second))
    (main : MainThread n σ) (condName : CondName) : read (main.signal condName) = read main := by
  cases main with
  | blocked call signalled => exact blocked ..
  | _ => rfl

theorem read_confirm {α : Sort*} (read : MainThread n σ → α)
    (ending : ∀ call id first second, read (.ending call id first) = read (.ending call id second))
    (confirming : ∀ call id first second,
      read (.confirming call id first) = read (.confirming call id second))
    (main : MainThread n σ) (condName : CondName) :
    read (main.confirm condName packet) = read main := by
  cases main with
  | ending call id received =>
    simp only [MainThread.confirm]
    split_ifs
    · exact ending ..
    · rfl
  | confirming call id received =>
    simp only [MainThread.confirm]
    split_ifs
    · exact confirming ..
    · rfl
  | _ => rfl

theorem read_unlock {α : Sort*} (read : MainThread n σ → α) {name : MutexName} {caller : Caller σ}
    {value : α}
    (releasing : read (.releasing name (process.receivedRequests name) caller) = value)
    (unlocked : read caller.afterUnlock = value) :
    read (process.unlock name caller).main = value := by
  unfold Process.unlock
  split_ifs
  · exact releasing
  · exact unlocked

/-- What is read of a main thread that has locked or unlocks is what its caller says, and neither
signals nor confirmations change it. -/
structure ReadsCaller {α : Sort*} (read : MainThread n σ → α) (caller : Caller σ → α) : Prop where
  afterLock : ∀ c, read c.afterLock = caller c := by rintro ⟨⟩ <;> rfl
  afterUnlock : ∀ c, read c.afterUnlock = caller c := by rintro ⟨⟩ <;> rfl
  releasing : ∀ name unanswered c, read (.releasing name unanswered c) = caller c := by intros; rfl
  blocked : ∀ call first second, read (.blocked call first) = read (.blocked call second) := by
    intros; rfl
  ending : ∀ call id first second,
    read (.ending call id first) = read (.ending call id second) := by intros; rfl
  confirming : ∀ call id first second,
    read (.confirming call id first) = read (.confirming call id second) := by intros; rfl

namespace ReadsCaller

variable {α : Sort*} {read : MainThread n σ → α} {caller : Caller σ → α}

theorem unlock (reads : ReadsCaller read caller) (process : Process n σ) (name : MutexName)
    (c : Caller σ) : read (process.unlock name c).main = caller c :=
  read_unlock read (reads.releasing ..) (reads.afterUnlock c)

theorem signal (reads : ReadsCaller read caller) (main : MainThread n σ) (condName : CondName) :
    read (main.signal condName) = read main :=
  read_signal read reads.blocked main condName

theorem confirm (reads : ReadsCaller read caller) (main : MainThread n σ) (condName : CondName)
    (packet : Packet n) : read (main.confirm condName packet) = read main :=
  read_confirm read reads.ending reads.confirming main condName

end ReadsCaller

theorem subscriptions_reads :
    ReadsCaller (MainThread.subscriptions : MainThread n σ → _) Caller.subscriptions := {}

theorem unlock_registered (process : Process n σ) (name : MutexName) (caller : Caller σ) :
    (process.unlock name caller).registeredMutexes = process.registeredMutexes := by
  unfold Process.unlock
  split_ifs <;> rfl

theorem coherent_signal {main : MainThread n σ} (coherent : main.Coherent) (condName : CondName) :
    (main.signal condName).Coherent := by
  cases main <;> exact coherent

theorem coherent_confirm {main : MainThread n σ} (coherent : main.Coherent)
    (type : packet.messageType = .condWaitEndConfirm) :
    (main.confirm packet.message packet).Coherent := by
  cases main with
  | ending call id received | confirming call id received =>
    simp only [MainThread.confirm]
    split_ifs with same
    · change (received.insert packet).About .condWaitEndConfirm call.condName
      change received.About .condWaitEndConfirm call.condName at coherent
      rw [← type] at coherent ⊢
      exact PacketSet.about_insert coherent same.symm
    · exact coherent
  | _ => exact coherent

namespace Process.WellFormed

theorem update_request (wf : process.WellFormed permanent) {mutexName : MutexName}
    {requests : PacketSet n} (about : requests.About .mutexRequest mutexName) (name : MutexName) :
    (Function.update process.receivedRequests mutexName requests name).About .mutexRequest name := by
  by_cases same : name = mutexName
  · rw [same, Function.update_self]
    exact about
  · rw [Function.update_of_ne same]
    exact wf.requests name

theorem unlock (wf : process.WellFormed permanent) {mutexName : MutexName} {caller : Caller σ}
    (active : process.main.subscriptions = caller.subscriptions) (locks : caller.Locks mutexName) :
    (process.unlock mutexName caller).WellFormed permanent := by
  unfold Process.unlock
  split_ifs
  · exact wf.of_same rfl rfl wf.requests active.symm ⟨wf.requests mutexName, locks⟩
  · exact wf.of_same rfl rfl wf.requests ((subscriptions_reads.afterUnlock caller).trans active.symm)
      (coherent_afterUnlock caller)

theorem acquireMutex (wf : process.WellFormed permanent) {mutexName : MutexName}
    {caller : Caller σ} (active : process.main.subscriptions = caller.subscriptions)
    (locks : caller.Locks mutexName) :
    (process.acquireMutex mutexName caller).WellFormed permanent :=
  wf.subscribe (by rw [active]; rfl) ⟨PacketSet.about_empty _ _, locks⟩

theorem mainStep (wf : process.WellFormed permanent)
    (step : MainStep serialization self process action process' sent) :
    process'.WellFormed permanent := by
  have coherent := wf.coherent
  cases step with
  | configured called main kept => exact wf.of_same rfl rfl wf.requests rfl coherent
  | assign main => exact wf.of_same rfl rfl wf.requests rfl coherent
  | lock main => exact wf.acquireMutex (by rw [main]; rfl) trivial
  | unlock main => exact wf.unlock (by rw [main]; rfl) trivial
  | wait main owned => exact wf.subscribe (by rw [main]; rfl) trivial
  | notify called main same picked =>
    rcases picked with rfl | ⟨recipients, rfl, -⟩
    · exact wf.of_same rfl rfl wf.requests rfl coherent
    · exact wf.of_same rfl rfl wf.requests (by rw [main]; rfl) trivial
  | leave main => exact wf.of_same rfl rfl wf.requests (by rw [main]; rfl) trivial
  | queue main =>
    rw [main] at coherent
    exact wf.of_same rfl rfl wf.requests (by rw [main]; rfl) coherent
  | @acquired mutexName id received caller main complete =>
    have left : ({ process.unsubscribe id with main := caller.afterLock } :
        Process n σ).WellFormed permanent :=
      wf.unsubscribe (by rw [main]; rfl) (subscriptions_reads.afterLock caller)
        (coherent_afterLock caller)
    exact left.of_same rfl rfl left.requests rfl left.coherent
  | answerDeferred main waiting =>
    rw [main] at coherent
    exact wf.of_same rfl rfl wf.requests (by rw [main]; rfl)
      ⟨PacketSet.about_remove coherent.1 _, coherent.2⟩
  | @released mutexName unanswered caller main through =>
    exact wf.of_same rfl rfl (wf.update_request (PacketSet.about_empty _ _))
      (by rw [main]; exact subscriptions_reads.afterUnlock caller) (coherent_afterUnlock caller)
  | announce main => exact wf.of_same rfl rfl wf.requests (by rw [main]; rfl) trivial
  | stop main holds => exact wf.of_same rfl rfl wf.requests (by rw [main]; rfl) trivial
  | retry main => exact wf.unlock (by rw [main]; rfl) rfl
  | wake main => exact wf.acquireMutex (by rw [main]; rfl) rfl
  | subscribeConfirmations main =>
    exact wf.subscribe (by rw [main]; rfl) (PacketSet.about_empty _ _)
  | announceEnd main =>
    rw [main] at coherent
    exact wf.of_same rfl rfl wf.requests (by rw [main]; rfl) coherent
  | @waitReturns call id received main complete =>
    have swap : { (process.unsubscribe call.notifySubscriptionId).unsubscribe id with
          main := (.running : MainThread n σ) } =
        { ({ process.unsubscribe id with main := .announcing call } : Process n σ).unsubscribe
          call.notifySubscriptionId with main := .running } := by
      simp only [Process.unsubscribe, List.filter_filter, Bool.and_comm]
    have first : ({ process.unsubscribe id with main := .announcing call } :
        Process n σ).WellFormed permanent :=
      wf.unsubscribe (by rw [main]; rfl) rfl trivial
    have active : ({ process.unsubscribe id with main := .announcing call } :
        Process n σ).main.subscriptions =
        [] ++ [(call.notifySubscriptionId, .condNotify call.condName)] := rfl
    rw [swap]
    exact first.unsubscribe active rfl trivial
  | sendNotify main => exact wf.of_same rfl rfl wf.requests (by rw [main]; rfl) trivial
  | sendSync main => exact wf.of_same rfl rfl wf.requests (by rw [main]; rfl) trivial
  | unlockMonitor main => exact wf.unlock (by rw [main]; rfl) trivial

theorem dispatched {monitors : List MonitorName} (wf : process.WellFormed permanent)
    (does : Dispatched self packet monitors process process' sent) :
    process'.WellFormed permanent := by
  have coherent := wf.coherent
  cases does with
  | agreed type registered allowed => exact wf.of_same rfl rfl wf.requests rfl coherent
  | deferred type registered refused =>
    have about := PacketSet.about_insert (type ▸ wf.requests packet.message) rfl
    exact wf.of_same rfl rfl (wf.update_request (type ▸ about)) rfl coherent
  | early type main queued | counted type main queued =>
    rw [main] at coherent
    exact wf.of_same rfl rfl wf.requests (by rw [main]; rfl)
      ⟨type ▸ PacketSet.about_insert (type ▸ coherent.1) rfl, coherent.2⟩
  | waiting type registered => exact wf.of_same rfl rfl wf.requests rfl coherent
  | ended type registered => exact wf.of_same rfl rfl wf.requests rfl coherent
  | notified type waits named =>
    exact wf.of_same rfl rfl wf.requests (subscriptions_reads.signal _ _) (coherent_signal coherent _)
  | confirmed type ends named =>
    exact wf.of_same rfl rfl wf.requests (subscriptions_reads.confirm _ _ _) (coherent_confirm coherent type)
  | synced type changed => exact wf.of_same rfl rfl wf.requests rfl coherent

theorem initial (p : ProcessId n) :
    (setup.process p).WellFormed (setup.permanentSubscriptions p) where
  subscriptions := (List.append_nil _).symm
  distinct := by
    have ids : (setup.permanentSubscriptions p).map (·.1) =
        List.range (setup.subscriptions p).length := List.map_fst_zip (by simp)
    exact ids ▸ List.nodup_range
  bounded := by
    intro entry member
    change (entry.1, entry.2) ∈ setup.permanentSubscriptions p at member
    exact List.mem_range.1 (List.of_mem_zip member).1
  requests := fun _ => PacketSet.about_empty _ _
  coherent := trivial

end Process.WellFormed

def System.WellFormed (setup : Setup n σ) (s : System n σ) : Prop :=
  ∀ p, (s.process p).WellFormed (setup.permanentSubscriptions p)

/-- A step that sends or consumes packets: one of the main thread, or a dispatch. -/
inductive ThreadStep (serialization : Serialization σ) (self : ProcessId n)
    (monitors : List MonitorName) (process : Process n σ) :
    Action n σ → Option (Packet n) → Process n σ → List (Envelope n) → Prop where
  | main {action : Action n σ} {process' : Process n σ} {sent : List (Envelope n)}
      (does : MainStep serialization self process action process' sent) :
      ThreadStep serialization self monitors process action none process' sent
  | dispatch {packet : Packet n} {process' : Process n σ} {sent : List (Envelope n)}
      (received : process.receiving = .received packet)
      (free : process.mustWait packet = false)
      (dispatches : process.dispatch serialization self packet = .ok (process', sent))
      (does : Dispatched self packet monitors process process' sent) :
      ThreadStep serialization self monitors process .dispatch (some packet) process' sent

inductive SystemStep (communicator : Communicator) (serialization : Serialization σ)
    (setup : Setup n σ) (s : System n σ) : Event n σ → System n σ → Prop where
  | receive {self source : ProcessId n} {raw : RawPacket} {rest : List RawPacket}
      (listening : (s.process self).receiving = .listening)
      (head : s.channel source self = raw :: rest) :
      SystemStep communicator serialization setup s (self, .receive source)
        { process := Function.update s.process self
            ((s.process self).receive communicator source raw)
          channel := fun from' to' =>
            if from' = source ∧ to' = self then rest else s.channel from' to' }
  | updateTimestamp {self : ProcessId n} {packet : Packet n}
      (updating : (s.process self).receiving = .updating packet) :
      SystemStep communicator serialization setup s (self, .updateTimestamp)
        (s.update self ({ s.process self with
          receiving := .received
            { packet with lamportTime := (s.process self).currentLamportTime } }, []))
  | acts {self : ProcessId n} {action : Action n σ} {consumed : Option (Packet n)}
      {process' : Process n σ} {sent : List (Envelope n)}
      (does : ThreadStep serialization self (setup.monitors self) (s.process self) action consumed
        process' sent) :
      SystemStep communicator serialization setup s (self, action) (s.update self (process', sent))

variable {s s' : System n σ} {e : Event n σ}

theorem step_act {self : ProcessId n} (notReceive : ∀ source, action ≠ .receive source)
    (taken : step communicator serialization s (self, action) = some s') :
    ∃ outcome, (s.process self).act serialization self action = some outcome ∧
      s' = s.update self outcome := by
  cases action
  case receive source => exact absurd rfl (notReceive source)
  all_goals
    obtain ⟨outcome, acts, rfl⟩ := Option.map_eq_some_iff.1 taken
    exact ⟨outcome, acts, rfl⟩

theorem step_call {self : ProcessId n} {called : Process n σ → Process n σ}
    (calls : ∀ process : Process n σ, process.act serialization self action =
      process.call (called process))
    (notReceive : ∀ source, action ≠ .receive source)
    (taken : step communicator serialization s (self, action) = some s') :
    (s.process self).main = .running ∧ s'.process self = called (s.process self) := by
  obtain ⟨outcome, acts, rfl⟩ := step_act notReceive taken
  rw [calls] at acts
  obtain ⟨main, rfl⟩ := call_some acts
  exact ⟨main, s.update_own ..⟩

theorem systemStep (wf : s.WellFormed setup)
    (taken : step communicator serialization s e = some s') :
    SystemStep communicator serialization setup s e s' := by
  obtain ⟨self, action⟩ := e
  by_cases isMain : action.isMain = true
  · obtain ⟨outcome, acts, rfl⟩ :=
      step_act (by rintro source rfl; cases isMain) taken
    exact .acts (.main (mainStep_of_act isMain acts))
  · cases action with
    | receive source =>
      simp only [step, System.receive] at taken
      split at taken
      next raw rest listening head =>
        cases taken
        exact .receive listening head
      next => cases taken
    | updateTimestamp =>
      obtain ⟨outcome, acts, rfl⟩ := step_act (by intro source; simp) taken
      obtain ⟨process', updated, rfl⟩ := Option.map_eq_some_iff.1 acts
      unfold Process.updateTimestamp at updated
      split at updated
      next packet updating =>
        cases updated
        exact .updateTimestamp updating
      next => cases updated
    | dispatch =>
      obtain ⟨outcome, acts, rfl⟩ := step_act (by intro source; simp) taken
      simp only [Process.act, Process.dispatchReceived] at acts
      split at acts
      next packet received =>
        split_ifs at acts with waits
        cases dispatches : (s.process self).dispatch serialization self packet with
        | error error => simp [dispatches, Except.toOption] at acts
        | ok result =>
          simp only [dispatches, Except.toOption, Option.some.injEq] at acts
          subst acts
          exact .acts (.dispatch received (by simpa using waits) dispatches
            (DistributedMonitor.dispatched (wf self) dispatches))
      next => cases acts
    | _ => exact absurd rfl isMain

theorem Process.WellFormed.threadStep {monitors : List MonitorName} {consumed : Option (Packet n)}
    (wf : process.WellFormed permanent)
    (does : ThreadStep serialization self monitors process action consumed process' sent) :
    process'.WellFormed permanent := by
  cases does with
  | main does => exact wf.mainStep does
  | dispatch received free dispatches does => exact wf.dispatched does

theorem forall_update {P : ProcessId n → Process n σ → Prop} {processes : ProcessId n → Process n σ}
    (before : ∀ p, P p (processes p)) {self : ProcessId n} {process' : Process n σ}
    (after : P self process') (p : ProcessId n) :
    P p (Function.update processes self process' p) := by
  by_cases same : p = self
  · subst same
    rwa [Function.update_self]
  · rw [Function.update_of_ne same]
    exact before p

theorem read_update {α : Type} (read : Process n σ → α) {self : ProcessId n}
    {process' : Process n σ} (same : read process' = read (s.process self)) (p : ProcessId n) :
    read (Function.update s.process self process' p) = read (s.process p) := by
  by_cases mine : p = self
  · subst mine
    rw [Function.update_self, same]
  · rw [Function.update_of_ne mine]

theorem System.WellFormed.step (wf : s.WellFormed setup)
    (does : SystemStep communicator serialization setup s e s') : s'.WellFormed setup := by
  cases does with
  | @receive self source raw rest listening head =>
    exact forall_update wf
      ((wf self).of_same rfl rfl (wf self).requests rfl (wf self).coherent)
  | @updateTimestamp self packet updating =>
    exact forall_update wf
      ((wf self).of_same rfl rfl (wf self).requests rfl (wf self).coherent)
  | @acts self action consumed process' sent does => exact forall_update wf ((wf self).threadStep does)

theorem wellFormed_run {contract : Permission (System n σ) (Event n σ)}
    {trace : Trace (System n σ) (Event n σ)}
    (run : Run communicator serialization setup contract trace s) : s.WellFormed setup := by
  apply run.invariant
  · rintro _ rfl p
    exact Process.WellFormed.initial p
  · intro trace s e s' _ wf _ taken
    exact wf.step (systemStep wf taken)

/-- What the steps of a process keep holds of it in every run, when neither its clock
nor its receiving thread matters. -/
theorem process_run {contract : Permission (System n σ) (Event n σ)}
    {trace : Trace (System n σ) (Event n σ)} {P : Process n σ → Prop}
    (run : Run communicator serialization setup contract trace s)
    (initially : ∀ p, P (setup.process p))
    (received : ∀ process currentLamportTime receiving, P process →
      P { process with currentLamportTime := currentLamportTime, receiving := receiving })
    (acted : ∀ trace s self action consumed process' sent,
      Run communicator serialization setup contract trace s → contract trace s (self, action) →
      P (s.process self) →
      ThreadStep serialization self (setup.monitors self) (s.process self) action consumed
        process' sent → P process') (p : ProcessId n) : P (s.process p) := by
  have holds : ∀ p, P (s.process p) := by
    apply run.invariant (I := fun s => ∀ p, P (s.process p))
    · rintro _ rfl
      exact initially
    · intro trace s e s' run before may taken
      cases systemStep (wellFormed_run run) taken with
      | receive listening head => exact forall_update before (received _ _ _ (before _))
      | updateTimestamp updating => exact forall_update before (received _ _ _ (before _))
      | acts does =>
        exact forall_update before (acted _ _ _ _ _ _ _ run may (before _) does)
  exact holds p

end DistributedMonitor
