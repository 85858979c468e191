import DistributedMonitor.Barrier
import DistributedMonitor.Replica

/-! Programs that keep to a plan: what they use is registered everywhere, a condition variable
goes with one mutex and is notified inside it. No packet of such programs ends in an exception. -/

namespace DistributedMonitor
open Library

variable {n : ℕ} {σ : Type} {communicator : Communicator} {serialization : Serialization σ}
  {setup : Setup n σ} {trace : Trace (System n σ) (Event n σ)} {s s' : System n σ}
  {self p q : ProcessId n} {monitors : List MonitorName} {process process' : Process n σ}
  {action : Action n σ} {consumed : Option (Packet n)} {sent : List (Envelope n)}
  {packet : Packet n} {raw : RawPacket} {condName : CondName}

/-- The names the programs use, and the mutex that goes with each condition variable. -/
structure Usage where
  mutexes : Finset MutexName
  conditions : Finset CondName
  monitors : Finset MonitorName
  mutexOf : CondName → MutexName

/-- Every process has registered what is used before it listens, and `extractMutexName` reads the
length of a monitor's name as it is: up to 127 bytes. -/
structure Usage.Ready (usage : Usage) (setup : Setup n σ) : Prop where
  mutexes : ∀ p, usage.mutexes ⊆ (setup.process p).registeredMutexes
  conditions : ∀ p, usage.conditions ⊆ setup.conditions p
  monitors : ∀ p, ∀ monitor ∈ usage.monitors, monitor ∈ setup.monitors p
  short : ∀ monitor ∈ usage.monitors, monitor.1.length < 128

def disciplined (usage : Usage) (s : System n σ) (e : Event n σ) : Bool :=
  match e.2 with
  | .lock mutexName => mutexName ∈ usage.mutexes
  | .unregisterMutex mutexName => mutexName ∉ usage.mutexes
  | .unregisterCV condName => condName ∉ usage.conditions
  | .wait condName mutexName _ =>
      condName ∈ usage.conditions ∧ mutexName ∈ usage.mutexes ∧ mutexName = usage.mutexOf condName
  | .notifyOne condName | .notifyAll condName => (s.process e.1).owned (usage.mutexOf condName)
  | .leave monitor => monitor ∈ usage.monitors
  | _ => true

def keepsPlan (usage : Usage) (s : System n σ) (e : Event n σ) : Bool :=
  match e.2 with
  | .notifyOne _ | .notifyAll _ => true
  | _ => disciplined usage s e

variable {usage : Usage}

theorem keepsPlan_of_disciplined {s : System n σ} {e : Event n σ}
    (may : disciplined usage s e = true) : keepsPlan usage s e = true := by
  obtain ⟨self, action⟩ := e
  cases action with
  | notifyOne | notifyAll => rfl
  | _ => exact may

theorem usesOnly_of_keepsPlan {s : System n σ} {e : Event n σ}
    (may : keepsPlan usage s e = true) : usesOnly usage.mutexes s e = true := by
  obtain ⟨self, action⟩ := e
  cases action with
  | lock | unregisterMutex => exact may
  | wait => exact decide_eq_true (of_decide_eq_true may).2.1
  | _ => rfl

theorem notifiesInside_of_disciplined {s : System n σ} {e : Event n σ}
    (may : disciplined usage s e = true) (condName : CondName) :
    notifiesInside condName (usage.mutexOf condName) s e = true := by
  obtain ⟨self, action⟩ := e
  cases action with
  | wait other mutex predicate =>
    have named := (of_decide_eq_true may).2.2
    refine decide_eq_true ?_
    by_cases same : other = condName
    · exact .inr (same ▸ named)
    · exact .inl same
  | notifyOne other | notifyAll other =>
    refine decide_eq_true ?_
    by_cases same : other = condName
    · subst same
      exact .inr may
    · exact .inl same
  | _ => rfl

theorem registeredCVs_unlock (process : Process n σ) (name : MutexName) (caller : Caller σ) :
    (process.unlock name caller).registeredCVs = process.registeredCVs := by
  unfold Process.unlock
  split_ifs <;> rfl

theorem threadStep_registeredCVs (quiet : action.configures = false)
    (does : ThreadStep serialization self monitors process action consumed process' sent) :
    process'.registeredCVs = process.registeredCVs := by
  cases does with
  | main does =>
    cases does with
    | configured called =>
      rw [quiet] at called
      cases called
    | unlock | retry | unlockMonitor => exact registeredCVs_unlock ..
    | _ => rfl
  | dispatch received free dispatches does => cases does <;> rfl

theorem registeredCVs_step (wf : s.WellFormed setup)
    (taken : step communicator serialization s (self, action) = some s')
    (kept : action ≠ .unregisterCV condName)
    (registered : condName ∈ (s.process p).registeredCVs) :
    condName ∈ (s'.process p).registeredCVs := by
  by_cases called : action.configures = true
  · have own : condName ∈ (s.process self).registeredCVs →
        condName ∈ (s'.process self).registeredCVs := by
      intro registered
      cases action with
      | registerMutex name | unregisterMutex name =>
        rw [(step_call (fun _ => rfl) (fun _ => by simp) taken).2]
        exact registered
      | registerCV name =>
        rw [(step_call (fun _ => rfl) (fun _ => by simp) taken).2]
        exact Finset.mem_insert_of_mem registered
      | unregisterCV name =>
        rw [(step_call (fun _ => rfl) (fun _ => by simp) taken).2]
        exact Finset.mem_erase.2 ⟨fun same => kept (same ▸ rfl), registered⟩
      | _ => cases called
    by_cases mine : p = self
    · subst mine
      exact own registered
    · obtain ⟨outcome, -, rfl⟩ := step_act (by rintro source rfl; cases called) taken
      have same : (s.update self outcome).process p = s.process p := s.update_other mine ..
      rwa [same]
  · have same : ∀ process' : Process n σ,
        process'.registeredCVs = (s.process self).registeredCVs →
        condName ∈ (Function.update s.process self process' p).registeredCVs :=
      fun process' same => (read_update (·.registeredCVs) same p).symm ▸ registered
    cases systemStep wf taken with
    | receive | updateTimestamp => exact same _ rfl
    | acts does =>
      exact same _ (threadStep_registeredCVs (Bool.eq_false_of_not_eq_true called) does)

section
variable (ready : usage.Ready setup)
  (run : Run .simple serialization setup (Obeying (keepsPlan usage)) trace s)
include ready run

theorem conditions_run (p : ProcessId n) : usage.conditions ⊆ (s.process p).registeredCVs := by
  refine run.invariant (I := fun s => ∀ p, usage.conditions ⊆ (s.process p).registeredCVs) ?_ ?_ p
  · rintro _ rfl
    exact ready.conditions
  · rintro trace s ⟨self, action⟩ s' run before may taken p condName used
    refine registeredCVs_step (wellFormed_run run) taken ?_ (before p used)
    rintro rfl
    exact of_decide_eq_true may used

end

section
variable (run : Run .simple serialization setup (Obeying (keepsPlan usage)) trace s)
include run

theorem waits_used {call : WaitCall σ} (waits : (s.process p).main.waitCall = some call) :
    call.condName ∈ usage.conditions := by
  refine process_run (P := fun process => ∀ call, process.main.waitCall = some call →
    call.condName ∈ usage.conditions) run ?_ ?_ ?_ p call waits
  · exact fun p call waits => nomatch waits
  · exact fun process clock receiving before => before
  · intro trace s self action consumed process' sent run may before does call waits
    rcases waitCall_step does waits with already | rfl
    · exact before call already
    · exact (of_decide_eq_true may).1

theorem leaves_used {monitor : MonitorName} (leaves : (s.process p).main.leaving? = some monitor) :
    monitor ∈ usage.monitors := by
  refine process_run (P := fun process => ∀ monitor, process.main.leaving? = some monitor →
    monitor ∈ usage.monitors) run ?_ ?_ ?_ p monitor leaves
  · exact fun p monitor leaves => nomatch leaves
  · exact fun process clock receiving before => before
  · intro trace s self action consumed process' sent run may before does monitor leaves
    rcases (leaving_step does leaves).2 with rfl | already
    · exact of_decide_eq_true may
    · exact before monitor already

end

theorem wait_sent
    (does : ThreadStep serialization self monitors process action consumed process' sent)
    {recipient : ProcessId n} (member : raw ∈ addressed sent recipient)
    (type : raw.messageType = .condWait ∨ raw.messageType = .condWaitEnd) :
    ∃ call, process.main.waitCall = some call ∧ raw.message = call.condName := by
  obtain ⟨envelope, listed, recipient, rfl⟩ := mem_addressed member
  cases does with
  | main does =>
    cases does with
    | announce here | announceEnd here =>
      rw [List.mem_singleton.1 listed]
      exact ⟨_, by rw [here]; rfl, rfl⟩
    | queue | answerDeferred | sendNotify | sendSync =>
      rw [List.mem_singleton.1 listed] at type
      rcases type with type | type <;> cases type
    | _ => cases listed
  | dispatch received free dispatches does =>
    cases does with
    | agreed | ended =>
      rw [List.mem_singleton.1 listed] at type
      rcases type with type | type <;> cases type
    | _ => cases listed

theorem wait_pending
    (run : Run .simple serialization setup (Obeying (keepsPlan usage)) trace s)
    (member : raw ∈ s.pending p q)
    (type : raw.messageType = .condWait ∨ raw.messageType = .condWaitEnd) :
    raw.message ∈ usage.conditions := by
  refine pending_run run (P := fun _ _ raw =>
    raw.messageType = .condWait ∨ raw.messageType = .condWaitEnd →
      raw.message ∈ usage.conditions) ?_ p q raw member type
  intro trace s self action consumed process' sent run may does recipient raw member type
  obtain ⟨call, waits, named⟩ := wait_sent does member type
  exact named ▸ waits_used run waits

theorem sync_pending_used
    (run : Run .simple serialization setup (Obeying (keepsPlan usage)) trace s)
    (member : raw ∈ s.pending p q) (type : raw.messageType = .sync) :
    ∃ monitor ∈ usage.monitors, ∃ data, raw.message = packSyncMessage monitor.1 data := by
  refine pending_run run (P := fun _ _ raw => raw.messageType = .sync →
    ∃ monitor ∈ usage.monitors, ∃ data, raw.message = packSyncMessage monitor.1 data)
    ?_ p q raw member type
  intro trace s self action consumed process' sent run may does recipient raw member type
  obtain ⟨-, -, monitor, data, main, packed⟩ := sync_sent does member type
  exact ⟨monitor, leaves_used run (by rw [main]; rfl), data, packed⟩

theorem runCallbacks_packed (serialization : Serialization σ) (self : ProcessId n)
    {monitor : MonitorName} {data : ByteString} (sync : packet.messageType = .sync)
    (packed : packet.message = packSyncMessage monitor.1 data) (short : monitor.1.length < 128)
    (monitors : List MonitorName) (process : Process n σ) :
    ∃ process', runCallbacks serialization self packet (monitors.map .sync) process =
      .ok (process', [], monitors.any (· = monitor)) := by
  have name : extractMutexName packet.message = some monitor.1 := by
    rw [packed, extractMutexName_pack _ _ short]
  have read : extractSerializedData packet.message = some data := by
    rw [packed, extractSerializedData_pack _ _ short]
  induction monitors generalizing process with
  | nil => exact ⟨process, rfl⟩
  | cons first rest ih =>
    by_cases same : first = monitor
    · obtain ⟨process', ran⟩ := ih (process.restore serialization first data)
      refine ⟨process', ?_⟩
      simp only [List.map_cons, runCallbacks, Subscription.accepts, if_pos sync, name, same,
        decide_true, bind, Except.bind, if_true, Subscription.callback, read, List.any_cons,
        Bool.true_or]
      rw [same] at ran
      rw [ran]
      rfl
    · have differs : monitor.1 ≠ first.1 := fun equal => same (Subtype.ext equal.symm)
      obtain ⟨process', ran⟩ := ih process
      refine ⟨process', ?_⟩
      simp only [List.map_cons, runCallbacks, Subscription.accepts, if_pos sync, name, differs,
        decide_false, bind, Except.bind, Bool.false_eq_true, if_false, ran, List.any_cons, same,
        Bool.false_or]

theorem wait_accepted (wf : process.WellFormed (setup.permanentSubscriptions p))
    (registered : packet.message ∈ process.registeredCVs)
    (type : packet.messageType = .condWait ∨ packet.messageType = .condWaitEnd) :
    ∃ outcome, process.dispatch serialization self packet = .ok outcome := by
  rw [dispatch_eq wf (by rcases type with type | type <;> simp [type])]
  rcases type with type | type <;>
    simp only [type, Process.listener, Subscription.deliver, Subscription.accepts, registered,
      Subscription.callback, decide_true, and_self] <;>
    exact ⟨_, rfl⟩

theorem sync_accepted {monitor : MonitorName} {data : ByteString}
    (wf : process.WellFormed (setup.permanentSubscriptions p))
    (listed : monitor ∈ setup.monitors p) (sync : packet.messageType = .sync)
    (packed : packet.message = packSyncMessage monitor.1 data) (short : monitor.1.length < 128) :
    ∃ outcome, process.dispatch serialization self packet = .ok outcome := by
  obtain ⟨process', ran⟩ :=
    runCallbacks_packed serialization self sync packed short (setup.monitors p) process
  have taken : ((setup.monitors p).any (· = monitor)) = true :=
    List.any_eq_true.2 ⟨monitor, listed, decide_eq_true rfl⟩
  rw [dispatch_sync wf sync, ran, taken]
  exact ⟨_, rfl⟩

theorem dispatch_kept (ready : usage.Ready setup)
    (run : Run .simple serialization setup (Obeying (keepsPlan usage)) trace s)
    (received : (s.process p).receiving = .received packet)
    (other : packet.messageType ≠ .condNotify) :
    ∃ outcome, (s.process p).dispatch serialization p packet = .ok outcome := by
  have wf := wellFormed_run run p
  have member : packet.raw ∈ s.pending packet.source p := received_pending received
  have mutexes : Run .simple serialization setup (Obeying (usesOnly usage.mutexes)) trace s :=
    run.weaken fun _ _ _ may => usesOnly_of_keepsPlan may
  cases type : packet.messageType with
  | mutexRequest => exact dispatch_accepts ready.mutexes mutexes received (.inl type)
  | mutexAgreement => exact dispatch_accepts ready.mutexes mutexes received (.inr type)
  | condWait =>
    exact wait_accepted wf (conditions_run ready run p (wait_pending run member (.inl type)))
      (.inl type)
  | condWaitEnd =>
    exact wait_accepted wf (conditions_run ready run p (wait_pending run member (.inr type)))
      (.inr type)
  | condWaitEndConfirm => exact (confirms_run run received type rfl).accepted
  | condNotify => exact absurd type other
  | sync =>
    obtain ⟨monitor, used, data, packed⟩ := sync_pending_used run member type
    exact sync_accepted wf (ready.monitors p monitor used) type packed (ready.short monitor used)

theorem handshake_disciplined
    (run : Run .simple serialization setup (Obeying (disciplined usage)) trace s)
    (condName : CondName) : Handshake condName s := by
  have inside : Run .simple serialization setup
      (Obeying (notifiesInside condName (usage.mutexOf condName))) trace s :=
    run.weaken fun _ _ _ may => notifiesInside_of_disciplined may _
  exact handshake_run inside fun _ _ e run handshake _ => ends_outside_inside run handshake e

theorem dispatch_planned (ready : usage.Ready setup)
    (run : Run .simple serialization setup (Obeying (disciplined usage)) trace s)
    (received : (s.process p).receiving = .received packet) :
    ∃ outcome, (s.process p).dispatch serialization p packet = .ok outcome := by
  by_cases type : packet.messageType = .condNotify
  · exact ((handshake_disciplined run packet.message).handled run received type rfl).2.2
  · exact dispatch_kept ready (run.weaken fun _ _ _ may => keepsPlan_of_disciplined may) received type

/-- The receiving thread never throws, whatever it has received: it dispatches its packet, at
once unless the main thread keeps it from a lock. -/
theorem never_throws (ready : usage.Ready setup)
    (run : Run .simple serialization setup (Obeying (disciplined usage)) trace s)
    (received : (s.process p).receiving = .received packet) :
    (∃ outcome, (s.process p).dispatch serialization p packet = .ok outcome) ∧
      ((s.process p).mustWait packet = false →
        ∃ s', step .simple serialization s (p, .dispatch) = some s') := by
  obtain ⟨outcome, dispatches⟩ := dispatch_planned ready run received
  refine ⟨⟨outcome, dispatches⟩, fun free => ⟨s.update p outcome, ?_⟩⟩
  simp [step, Process.act, Process.dispatchReceived, received, free, dispatches, Except.toOption]

def sharedUsage : Usage := ⟨{board.1}, {news}, {board}, fun _ => board.1⟩

theorem shared_ready (n : ℕ) : sharedUsage.Ready (shared n) where
  mutexes p := by simp [sharedUsage, Setup.process, shared]
  conditions p := Finset.Subset.refl _
  monitors p monitor used := by
    rw [Finset.mem_singleton.1 used]
    exact List.mem_singleton_self _
  short monitor used := by
    rw [Finset.mem_singleton.1 used]
    decide

theorem never_throws_two : ∃ trace s,
    Run .simple unary (shared 2) (Obeying (disciplined sharedUsage)) trace s ∧
      ∃ packet, (s.process 0).receiving = .received packet ∧ packet.messageType = .sync ∧
        ∃ outcome, (s.process 0).dispatch unary 0 packet = .ok outcome := by
  obtain ⟨trace, s, run, received⟩ := exists_run .simple unary (shared 2)
    (Obeying (disciplined sharedUsage))
    [waitAndEnter, [(1, .notifyOne news), (1, .sendNotify), (1, .assign board.1 1), (1, .leave board),
      (1, .sendSync)], deliver 1 0, [(0, .receive 1)]].flatten
    (fun _ s => (s.process 0).receiving = .received ⟨12, 1, .sync, packSyncMessage board.1 [1]⟩)
    (by decide +kernel)
  have received := of_decide_eq_true received
  exact ⟨trace, s, run, _, received, rfl, (never_throws (shared_ready 2) run received).1⟩

end DistributedMonitor
