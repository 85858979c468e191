import DistributedMonitor.Handshake

/-! A notification is handled where it arrives: always when it is sent inside the
monitor, and outside when no wait ends between the choice and the sending. -/

namespace DistributedMonitor
open Library TicketExclusion Registration

variable {n : ℕ} {σ : Type} {communicator : Communicator} {serialization : Serialization σ}
  {setup : Setup n σ} {contract : Permission (System n σ) (Event n σ)}
  {trace : Trace (System n σ) (Event n σ)} {s s' : System n σ} {condName : CondName}
  {mutexName : MutexName} {self p q : ProcessId n} {packet : Packet n}

/-- Between the first and the last line of a `wait` on the condition variable. -/
def MainThread.insideWait (condName : CondName) (main : MainThread n σ) : Bool :=
  main.waitCall.any (·.condName = condName)

theorem inside_of_stage {main : MainThread n σ} (stage : main.stage condName ≠ .outside) :
    main.insideWait condName = true := by
  cases main with
  | announcing call => exact absurd rfl stage
  | confirming call =>
    simp only [MainThread.stage] at stage
    split_ifs at stage with named
    · exact decide_eq_true named
    · exact absurd rfl stage
  | _ =>
    simp only [MainThread.stage] at stage
    split_ifs at stage with inside
    · exact inside
    · exact absurd rfl stage

theorem inside_iff {main : MainThread n σ} : main.insideWait condName = true ↔
    ∃ call, main.waitCall = some call ∧ call.condName = condName := by
  simp [MainThread.insideWait, Option.any_eq_true]

theorem subscribed_of_inside {permanent : List (SubscriptionId × Subscription)}
    {process : Process n σ} (wf : process.WellFormed permanent)
    (inside : process.main.insideWait condName = true) :
    process.subscribed (.condNotify condName) := by
  obtain ⟨call, waits, rfl⟩ := inside_iff.1 inside
  have listed := main_listeners process.main .condNotify
  simp only [waits, Option.map_some, Option.toList_some] at listed
  have member : Subscription.condNotify call.condName ∈ process.main.subscriptions.map (·.2) :=
    (List.mem_filter.1 (listed ▸ List.mem_singleton_self _)).1
  unfold Process.subscribed
  rw [wf.subscriptions, List.map_append]
  exact List.mem_append_right _ member

theorem notify_accepted (run : Run communicator serialization setup contract trace s)
    (inside : (s.process p).main.insideWait packet.message = true)
    (type : packet.messageType = .condNotify) :
    ∃ outcome, (s.process p).dispatch serialization p packet = .ok outcome := by
  obtain ⟨call, waits, named⟩ := inside_iff.1 inside
  rw [dispatch_eq (wellFormed_run run p) (by rw [type]; exact nofun)]
  simp only [type, Process.listener, waits, Option.map_some, Subscription.deliver,
    Subscription.accepts, Subscription.callback, named, decide_true, and_self]
  exact ⟨_, rfl⟩

theorem notice_received (received : (s.process p).receiving = .received packet)
    (type : packet.messageType = .condNotify) (named : packet.message = condName) :
    Answer.notice ∈ (s.pair condName p packet.source).answers := by
  have member : packet.raw ∈ s.pending packet.source p := received_pending received
  have notice : packet.raw.answer condName = some .notice := by
    simp [RawPacket.answer, Packet.raw, type, named]
  exact List.mem_filterMap.2 ⟨packet.raw, member, notice⟩

theorem Handshake.notified (handshake : Handshake condName s)
    (received : (s.process p).receiving = .received packet)
    (type : packet.messageType = .condNotify) (named : packet.message = condName) :
    (s.process p).main.insideWait condName = true := by
  have listed := notice_received received type named
  by_cases own : p = packet.source
  · rw [← own, (handshake.alone p).answers] at listed
    cases listed
  · exact inside_of_stage ((handshake.sound p packet.source own).notified listed)

theorem Handshake.handled (handshake : Handshake condName s)
    (run : Run communicator serialization setup contract trace s)
    (received : (s.process p).receiving = .received packet)
    (type : packet.messageType = .condNotify) (named : packet.message = condName) :
    (s.process p).main.insideWait condName = true ∧
      (s.process p).subscribed (.condNotify condName) ∧
      ∃ outcome, (s.process p).dispatch serialization p packet = .ok outcome := by
  have inside := handshake.notified received type named
  exact ⟨inside, subscribed_of_inside (wellFormed_run run p) inside,
    notify_accepted run (named ▸ inside) type⟩

/-- No notification is lost on a finished wait as long as no wait ends between the choice
of its process and the sending. -/
theorem notification_handled
    (run : Run .simple serialization setup (Obeying (endsOutsideNotify condName)) trace s)
    (received : (s.process p).receiving = .received packet)
    (type : packet.messageType = .condNotify) (named : packet.message = condName) :
    (s.process p).main.insideWait condName = true ∧
      (s.process p).subscribed (.condNotify condName) ∧
      ∃ outcome, (s.process p).dispatch serialization p packet = .ok outcome :=
  (handshake_run run fun _ _ _ _ _ may => may).handled run received type named

def Process.notice (process : Process n σ) (condName : CondName) : Bool :=
  match process.receiving with
  | .received packet => packet.messageType = .condNotify ∧ packet.message = condName
  | _ => false

theorem notice_iff {process : Process n σ} : process.notice condName = true ↔
    ∃ packet, process.receiving = .received packet ∧ packet.messageType = .condNotify ∧
      packet.message = condName := by
  unfold Process.notice
  cases process.receiving <;> simp

/-- The notification that waits to be dispatched finds no subscription. -/
def Process.unhandled (serialization : Serialization σ) (self : ProcessId n) (process : Process n σ)
    (condName : CondName) : Bool :=
  match process.receiving with
  | .received packet => packet.messageType = .condNotify ∧ packet.message = condName ∧
      (process.dispatch serialization self packet).toOption.isNone
  | _ => false

def waitAndEnter : List (Event 2 ℕ) :=
  [[(0, .lock board.1), (0, .queue)], deliver 0 1, deliver 1 0, [(0, .acquired),
    (0, .wait news board.1 (· == 1)), (0, .announce)], deliver 0 1, [(0, .evaluate),
    (0, .released), (1, .lock board.1), (1, .queue)], deliver 1 0, deliver 0 1,
    [(1, .acquired)]].flatten

theorem notification_handled_two : ∃ trace s,
    Run .simple unary (shared 2) (Obeying (endsOutsideNotify news)) trace s ∧
      (s.process 0).notice news = true ∧ (s.process 0).main.insideWait news = true := by
  obtain ⟨trace, s, run, noticed⟩ := exists_run .simple unary (shared 2)
    (Obeying (endsOutsideNotify news))
    [waitAndEnter, [(1, .unlock board.1), (1, .released), (1, .notifyOne news), (1, .sendNotify),
      (0, .receive 1)]].flatten
    (fun _ s => (s.process 0).notice news) (by decide +kernel)
  obtain ⟨packet, received, type, named⟩ := notice_iff.1 noticed
  exact ⟨trace, s, run, noticed, (notification_handled run received type named).1⟩

/-- The program of a process has got through `unlock` of the mutex. -/
def unlocked (mutexName : MutexName) (p : ProcessId n) (s : System n σ) (e : Event n σ) : Bool :=
  match e.2, (s.process p).main with
  | .released, .releasing name _ .program => e.1 = p ∧ name = mutexName
  | _, _ => false

/-- The condition variable is used with one mutex, and notified by a process that has
unlocked the mutex and not locked it again. -/
def notifiesUnlocked (condName : CondName) (mutexName : MutexName)
    (trace : Trace (System n σ) (Event n σ)) (s : System n σ) (e : Event n σ) : Bool :=
  match e.2 with
  | .wait other mutex _ => other ≠ condName ∨ mutex = mutexName
  | .notifyOne other | .notifyAll other => other ≠ condName ∨
      (s.process e.1).owned mutexName = false ∧
        trace.any fun entry => unlocked mutexName e.1 entry.1 entry.2
  | _ => true

def leaveAndWait : List (Event 2 ℕ) :=
  [[(1, .lock board.1), (1, .queue)], deliver 1 0, deliver 0 1, [(1, .acquired), (1, .leave board),
    (1, .sendSync), (1, .unlockMonitor), (1, .released)], deliver 1 0, [(0, .lock board.1),
    (0, .queue)], deliver 0 1, deliver 1 0, [(0, .acquired), (0, .wait news board.1 (· == 0)),
    (0, .announce)], deliver 0 1].flatten

/-- The waiter is chosen, its wait ends and is confirmed, and only then is it notified. -/
theorem notification_unhandled_two : ¬∀ trace s,
    Run .simple unary (shared 2) (fun trace s e => notifiesUnlocked news board.1 trace s e = true)
        trace s →
      ∀ p packet, (s.process p).receiving = .received packet →
        packet.messageType = .condNotify → packet.message = news →
        (s.process p).main.insideWait news = true ∧
          (s.process p).subscribed (.condNotify news) ∧
          ∃ outcome, (s.process p).dispatch unary p packet = .ok outcome := by
  intro handled
  obtain ⟨trace, s, run, fails⟩ := exists_run .simple unary (shared 2)
    (fun trace s e => notifiesUnlocked news board.1 trace s e = true)
    [leaveAndWait, [(1, .notifyOne news), (0, .evaluate), (0, .subscribeConfirmations),
      (0, .announceEnd)], deliver 0 1, [(1, .sendNotify)], deliver 1 0, [(0, .waitReturns),
      (0, .receive 1)]].flatten
    (fun _ s => (s.process 0).unhandled unary 0 news) (by decide +kernel)
  unfold Process.unhandled at fails
  split at fails
  next packet received =>
    obtain ⟨type, named, fails⟩ := of_decide_eq_true fails
    obtain ⟨-, -, outcome, dispatches⟩ := handled trace s run 0 packet received type named
    rw [dispatches] at fails
    cases fails
  next => cases fails

/-- The condition variable is used with one mutex, and notified by the holder of the mutex. -/
def notifiesInside (condName : CondName) (mutexName : MutexName) (s : System n σ)
    (e : Event n σ) : Bool :=
  match e.2 with
  | .wait other mutex _ => other ≠ condName ∨ mutex = mutexName
  | .notifyOne other | .notifyAll other => other ≠ condName ∨ (s.process e.1).owned mutexName
  | _ => true

def MainThread.notifying? : MainThread n σ → Option CondName
  | .notifying condName _ => some condName
  | _ => none

structure Process.Inside (condName : CondName) (mutexName : MutexName) (process : Process n σ) :
    Prop where
  waits : ∀ call, process.main.waitCall = some call → call.condName = condName →
    call.mutex = mutexName
  notifies : process.main.notifying? = some condName → process.owned mutexName = true

theorem notifying_reads :
    ReadsCaller (MainThread.notifying? : MainThread n σ → _) fun _ => none := {}

theorem notifying_step {monitors : List MonitorName} {process process' : Process n σ}
    {action : Action n σ} {consumed : Option (Packet n)} {sent : List (Envelope n)}
    (does : ThreadStep serialization self monitors process action consumed process' sent)
    (notifies : process'.main.notifying? = some condName) :
    process'.owned = process.owned ∧ (process.main.notifying? = some condName ∨
      action = .notifyOne condName ∨ action = .notifyAll condName) := by
  cases does with
  | main does =>
    cases does with
    | configured | assign => exact ⟨rfl, .inl notifies⟩
    | unlock | retry | unlockMonitor =>
      rw [notifying_reads.unlock] at notifies
      cases notifies
    | notify called here same picked =>
      refine ⟨rfl, ?_⟩
      rcases picked with rfl | ⟨recipients, rfl, -⟩
      · exact .inl notifies
      · cases notifies
        exact .inr called
    | @acquired name id received caller | @released name unanswered caller =>
      cases caller <;> cases notifies
    | _ => cases notifies
  | dispatch received free dispatches does =>
    cases does with
    | early | counted => cases notifies
    | notified => exact ⟨rfl, .inl (notifying_reads.signal _ _ ▸ notifies)⟩
    | confirmed => exact ⟨rfl, .inl (notifying_reads.confirm _ _ _ ▸ notifies)⟩
    | _ => exact ⟨rfl, .inl notifies⟩

theorem inside_run
    (run : Run communicator serialization setup (Obeying (notifiesInside condName mutexName)) trace
      s) (p : ProcessId n) : (s.process p).Inside condName mutexName := by
  refine process_run run ?_ ?_ ?_ p
  · exact fun p => ⟨nofun, nofun⟩
  · exact fun process clock receiving before => ⟨before.waits, before.notifies⟩
  · intro trace s self action consumed process' sent run may before does
    refine ⟨fun call waits named => ?_, fun notifies => ?_⟩
    · rcases waitCall_step does waits with already | rfl
      · exact before.waits call already named
      · exact (of_decide_eq_true may).resolve_left fun other => other named
    · obtain ⟨owned, already | rfl | rfl⟩ := notifying_step does notifies
      · rw [owned]
        exact before.notifies already
      · rw [owned]
        exact (of_decide_eq_true may).resolve_left fun other => other rfl
      · rw [owned]
        exact (of_decide_eq_true may).resolve_left fun other => other rfl

theorem notifying_of_recipient {main : MainThread n σ} (picked : q ∈ main.recipients condName) :
    ∃ recipients, main = .notifying condName recipients := by
  cases main with
  | notifying name recipients =>
    simp only [MainThread.recipients] at picked
    split_ifs at picked with named
    · exact ⟨recipients, by rw [named]⟩
    · cases picked
  | _ => cases picked

theorem confirming_of_closing {main : MainThread n σ} (closing : main.stage condName = .closing) :
    ∃ call id received, main = .confirming call id received ∧ call.condName = condName := by
  cases main with
  | announcing => cases closing
  | confirming call id received =>
    simp only [MainThread.stage] at closing
    split_ifs at closing with named
    exact ⟨call, id, received, rfl, named⟩
  | _ =>
    simp only [MainThread.stage] at closing
    split_ifs at closing

theorem notifier_alone
    (run : Run communicator serialization setup (Obeying (notifiesInside condName mutexName)) trace
      s) (notifies : (s.process q).main.notifying? = some condName)
    (holds : (s.process p).holds mutexName = true)
    (settled : (s.process p).main.collecting? = none) : p = q := by
  have owned := (inside_run run q).notifies notifies
  obtain ⟨time, holding⟩ := holding_of_owned (owning_run run p) holds (by rw [settled]; exact nofun)
  have notifying : ∃ time, (s.process q).phase mutexName = .holding time := by
    cases main : (s.process q).main with
    | notifying name recipients =>
      refine holding_of_owned (owning_run run q) (holds_iff.2 ⟨owned, ?_⟩) ?_ <;>
        rw [main] <;> exact nofun
    | _ =>
      rw [main] at notifies
      cases notifies
  obtain ⟨time', holding'⟩ := notifying
  exact holding_unique run holding holding'

/-- From the evaluation of the predicate to the unlock inside `realCond.wait` nobody notifies:
there a notification that is sent and dispatched would find the thread not asleep yet. -/
theorem checking_unnotified
    (run : Run communicator serialization setup (Obeying (notifiesInside condName mutexName)) trace
      s) {call : WaitCall σ} (main : (s.process p).main = .checking call)
    (named : call.condName = condName) (q : ProcessId n) :
    (s.process q).main.notifying? ≠ some condName := by
  intro notifies
  have mutex := (inside_run run p).waits call (by rw [main]; rfl) named
  have owned := (owning_run run p).main
  rw [main] at owned
  have holds : (s.process p).holds mutexName = true := by
    refine holds_iff.2 ⟨mutex ▸ owned, ?_⟩
    rw [main]
    exact nofun
  have same := notifier_alone run notifies holds (by rw [main]; rfl)
  rw [← same, main] at notifies
  cases notifies

/-- The receiving thread never meets the end of a wait while the main thread notifies: the
mutex of the condition variable is held by the one that ends and by the one that notifies. -/
theorem ends_outside_inside
    (run : Run .simple serialization setup (Obeying (notifiesInside condName mutexName)) trace s)
    (handshake : Handshake condName s) (e : Event n σ) : endsOutsideNotify condName s e = true := by
  unfold endsOutsideNotify
  split
  next packet _ received =>
    apply decide_eq_true
    rintro ⟨type, named, picked⟩
    obtain ⟨recipients, notifies⟩ := notifying_of_recipient picked
    have member : packet.raw ∈ s.pending packet.source e.1 := received_pending received
    have listed : Signal.withdraw ∈ (s.pair condName packet.source e.1).signals :=
      List.mem_filterMap.2 ⟨packet.raw, member, withdraw_iff.2 ⟨type, named⟩⟩
    by_cases own : packet.source = e.1
    · rw [own, (handshake.alone e.1).signals] at listed
      cases listed
    · obtain ⟨call, id, confirmations, main, same⟩ :=
        confirming_of_closing ((handshake.sound _ _ own).withdrawing listed)
      have ending : (s.process packet.source).holds mutexName = true := by
        have mutex := (inside_run run packet.source).waits call (by rw [main]; rfl) same
        have owned := (owning_run run packet.source).main
        rw [main] at owned
        refine holds_iff.2 ⟨mutex ▸ owned, ?_⟩
        rw [main]
        exact nofun
      exact own (notifier_alone run (by rw [notifies]; rfl) ending (by rw [main]; rfl))
  next => rfl

theorem notification_inside
    (run : Run .simple serialization setup (Obeying (notifiesInside condName mutexName)) trace s)
    (received : (s.process p).receiving = .received packet)
    (type : packet.messageType = .condNotify) (named : packet.message = condName) :
    (s.process p).main.insideWait condName = true ∧
      (s.process p).subscribed (.condNotify condName) ∧
      ∃ outcome, (s.process p).dispatch serialization p packet = .ok outcome :=
  (handshake_run run fun _ _ e run handshake _ =>
    ends_outside_inside run handshake e).handled run received type named

theorem notification_inside_two : ∃ trace s,
    Run .simple unary (shared 2) (Obeying (notifiesInside news board.1)) trace s ∧
      (s.process 0).notice news = true ∧ (s.process 0).main.insideWait news = true := by
  obtain ⟨trace, s, run, noticed⟩ := exists_run .simple unary (shared 2)
    (Obeying (notifiesInside news board.1))
    [waitAndEnter, [(1, .notifyAll news), (1, .sendNotify), (0, .receive 1)]].flatten
    (fun _ s => (s.process 0).notice news) (by decide +kernel)
  obtain ⟨packet, received, type, named⟩ := notice_iff.1 noticed
  exact ⟨trace, s, run, noticed, (notification_inside run received type named).1⟩

end DistributedMonitor
