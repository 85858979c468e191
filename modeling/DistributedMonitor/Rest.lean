import DistributedMonitor.Discipline
import DistributedMonitor.Work

/-! What a system without further calls comes to. No wake-up is lost on the way there, and at
the end every process is back in its program, asleep and not notified, or behind an owner. -/

namespace DistributedMonitor
open Library TicketExclusion Registration

variable {n : ℕ} {σ : Type} {communicator : Communicator} {serialization : Serialization σ}
  {setup : Setup n σ} {contract : Permission (System n σ) (Event n σ)}
  {trace : Trace (System n σ) (Event n σ)} {s s' : System n σ} {e : Event n σ}
  {self p q : ProcessId n} {monitors : List MonitorName} {process process' : Process n σ}
  {action : Action n σ} {consumed : Option (Packet n)} {sent : List (Envelope n)}
  {packet : Packet n} {condName : CondName} {usage : Usage}

/-- In `realCond.wait` with a predicate found false, and not signalled since. -/
def MainThread.asleep (condName : CondName) : MainThread n σ → Bool
  | .releasing _ _ (.wait call) | .blocked call false => call.condName = condName
  | _ => false

def evaluates (p : ProcessId n) (e : Event n σ) : Bool :=
  match e.2 with
  | .evaluate => e.1 = p
  | _ => false

def noticesIn (condName : CondName) (raws : List RawPacket) : ℕ :=
  raws.countP (·.carries .condNotify condName)

/-- How often one process has notified another since that one looked at its predicate last. -/
def notifiedSince (serialization : Serialization σ) (condName : CondName) (q p : ProcessId n) :
    Trace (System n σ) (Event n σ) → ℕ
  | [] => 0
  | entry :: earlier =>
      if evaluates p entry.2 then 0
      else notifiedSince serialization condName q p earlier +
        noticesIn condName (sentBy serialization q p entry.1 entry.2)

theorem noticesIn_append (first second : List RawPacket) :
    noticesIn condName (first ++ second) = noticesIn condName first + noticesIn condName second :=
  List.countP_append ..

theorem asleep_unlock (process : Process n σ) (name : MutexName) :
    (process.unlock name .program).main.asleep condName = false :=
  read_unlock (MainThread.asleep condName) rfl rfl

theorem asleep_blocked {call : WaitCall σ} {signalled : Bool} :
    (MainThread.blocked call signalled : MainThread n σ).asleep condName = true ↔
      signalled = false ∧ call.condName = condName := by
  cases signalled <;> simp [MainThread.asleep]

/-- Nobody falls asleep but by looking at the predicate, and the receiving thread dispatches
no notification to a sleeper that leaves it asleep. -/
theorem asleep_step
    (does : ThreadStep serialization self monitors process action consumed process' sent)
    (asleep : process'.main.asleep condName = true) : action = .evaluate ∨
      process.main.asleep condName = true ∧
        ∀ packet, consumed = some packet → packet.raw.carries .condNotify condName = false := by
  cases does with
  | main does =>
    cases does with
    | configured | assign => exact .inr ⟨asleep, fun _ absent => by cases absent⟩
    | @answerDeferred request name unanswered caller here =>
      refine .inr ⟨?_, fun _ absent => by cases absent⟩
      rw [here]
      cases caller <;> exact asleep
    | stop | retry => exact .inl rfl
    | unlock | unlockMonitor =>
      rw [asleep_unlock] at asleep
      cases asleep
    | notify called here same picked =>
      rcases picked with rfl | ⟨recipients, rfl, -⟩
      · exact .inr ⟨asleep, fun _ absent => by cases absent⟩
      · cases asleep
    | @acquired name id received caller => cases caller <;> cases asleep
    | @released name unanswered caller here =>
      cases caller with
      | program => cases asleep
      | wait call =>
        refine .inr ⟨here ▸ (asleep_blocked.1 asleep).2 ▸ decide_eq_true rfl, ?_⟩
        exact fun _ absent => by cases absent
    | _ => cases asleep
  | @dispatch packet process' sent received free dispatches does =>
    refine .inr ?_
    have other : packet.messageType ≠ .condNotify → ∀ packet', some packet = some packet' →
        packet'.raw.carries .condNotify condName = false := by
      intro type packet' same
      cases same
      exact Bool.eq_false_of_not_eq_true fun carries => type (RawPacket.carries_iff.1 carries).1
    cases does with
    | early | counted => cases asleep
    | @notified call type waits named =>
      cases main : process.main with
      | blocked call' signalled =>
        rw [main] at waits asleep
        cases waits
        have woken := (asleep_blocked.1 asleep).1
        simp [named] at woken
      | releasing name unanswered caller =>
        rw [main] at waits asleep
        cases caller with
        | program => cases waits
        | wait call' =>
          cases waits
          simp [Process.mustWait, main, type, named] at free
      | _ =>
        rw [main] at asleep
        cases asleep
    | confirmed type =>
      have same : (process.main.confirm packet.message packet).asleep condName =
          process.main.asleep condName :=
        read_confirm (MainThread.asleep condName) (fun _ _ _ _ => rfl) (fun _ _ _ _ => rfl) _ _
      exact ⟨same ▸ asleep, other (by rw [type]; decide)⟩
    | agreed type | deferred type | waiting type | ended type | synced type =>
      exact ⟨asleep, other (by rw [type]; decide)⟩

theorem notices_pending_updateTimestamp (updating : (s.process self).receiving = .updating packet)
    (p q : ProcessId n) :
    noticesIn condName ((s.update self ({ s.process self with
      receiving := .received
        { packet with lamportTime := (s.process self).currentLamportTime } }, [])).pending p q) =
      noticesIn condName (s.pending p q) := by
  rw [pending_updateTimestamp updating]
  split_ifs with here
  · obtain ⟨rfl, rfl⟩ := here
    have old : s.pending packet.source q = packet.raw :: s.channel packet.source q := by
      simp [System.pending, updating, ReceivingThread.inbox, inboxFrom]
    rw [old, noticesIn, noticesIn, List.countP_cons, List.countP_cons]
    rfl
  · rfl

theorem notified_pending (run : Run communicator serialization setup contract trace s)
    (condName : CondName) (q p : ProcessId n)
    (asleep : (s.process p).main.asleep condName = true) :
    notifiedSince serialization condName q p trace ≤ noticesIn condName (s.pending q p) := by
  revert asleep
  apply run.history_invariant (I := fun trace s => (s.process p).main.asleep condName = true →
    notifiedSince serialization condName q p trace ≤ noticesIn condName (s.pending q p))
  · rintro _ rfl asleep
    cases asleep
  · intro trace s e s' run before may taken asleep
    rw [notifiedSince]
    split_ifs with looks
    · exact Nat.zero_le _
    · cases systemStep (wellFormed_run run) taken with
      | receive listening head =>
        have before := before ((read_update (·.main.asleep condName) (by rfl) p).symm.trans asleep)
        rw [sentBy_receive, pending_receive listening head]
        exact before
      | @updateTimestamp self packet updating =>
        have unsent : sentBy serialization q p s (self, .updateTimestamp) = [] := by
          unfold sentBy
          split_ifs with mine
          · subst mine
            simp [Process.act, Process.updateTimestamp, updating]
          · rfl
        have before := before ((read_update (·.main.asleep condName) (by rfl) p).symm.trans asleep)
        rw [unsent, notices_pending_updateTimestamp updating]
        exact before
      | @acts self action consumed process' sent does =>
        obtain ⟨rest, pending, pending'⟩ := pending_acts does q p
        have quiet : (s.process p).main.asleep condName = true ∧
            noticesIn condName (dispatchedFrom self q p consumed) = 0 := by
          by_cases mine : p = self
          · subst mine
            rw [System.update_own] at asleep
            rcases asleep_step does asleep with rfl | ⟨before, unread⟩
            · exact absurd (decide_eq_true rfl) looks
            · refine ⟨before, List.countP_eq_zero.2 fun raw member carries => ?_⟩
              rw [dispatchedFrom, if_pos rfl] at member
              cases consumed with
              | none => cases member
              | some packet =>
                obtain ⟨-, rfl⟩ := mem_inboxFrom.1 member
                rw [unread packet rfl] at carries
                cases carries
          · rw [s.update_other mine] at asleep
            rw [dispatchedFrom, if_neg mine]
            exact ⟨asleep, rfl⟩
        have sofar := before quiet.1
        rw [pending, noticesIn_append, quiet.2] at sofar
        rw [sentBy_acts does taken, pending', noticesIn_append]
        omega

theorem notifiedSince_pos {later earlier : Trace (System n σ) (Event n σ)}
    (looked : ∀ entry ∈ later, evaluates p entry.2 = false) {raw : RawPacket}
    (sends : raw ∈ sentBy serialization q p s e) (notice : raw.carries .condNotify condName = true) :
    0 < notifiedSince serialization condName q p (later ++ (s, e) :: earlier) := by
  induction later with
  | nil =>
    have other : evaluates p e = false := by
      obtain ⟨self, action⟩ := e
      refine Bool.eq_false_of_not_eq_true fun looks => ?_
      cases action with
      | evaluate =>
        unfold sentBy at sends
        split_ifs at sends with mine
        · simp only [Process.act, Process.evaluate] at sends
          split at sends
          next call main => split_ifs at sends <;> cases sends
          next => cases sends
        · cases sends
      | _ => cases looks
    have counted : 0 < noticesIn condName (sentBy serialization q p s e) :=
      List.countP_pos_iff.2 ⟨raw, sends, notice⟩
    rw [List.nil_append, notifiedSince, other]
    exact Nat.add_pos_right _ counted
  | cons entry later ih =>
    have before := ih fun entry member => looked entry (List.mem_cons_of_mem _ member)
    rw [List.cons_append, notifiedSince, looked entry (List.mem_cons_self ..)]
    exact Nat.add_pos_left before _

/-- A notification that was sent to a process after it last looked at its predicate is still
on its way as long as the process sleeps: it wakes the process when it is dispatched. That the
condition variable is notified by the holder of its mutex is what lets the model take the
evaluation and the falling asleep for one step, see `checking_unnotified`. -/
theorem no_lost_wakeup {mutexName : MutexName}
    (run : Run communicator serialization setup (Obeying (notifiesInside condName mutexName)) trace
      s) {later earlier : Trace (System n σ) (Event n σ)} {s₀ : System n σ}
    (split : trace = later ++ (s₀, e) :: earlier)
    (looked : ∀ entry ∈ later, evaluates p entry.2 = false) {raw : RawPacket}
    (sends : raw ∈ sentBy serialization q p s₀ e)
    (notice : raw.carries .condNotify condName = true)
    (asleep : (s.process p).main.asleep condName = true) :
    ∃ raw ∈ s.pending q p, raw.carries .condNotify condName = true := by
  have since : 0 < notifiedSince serialization condName q p trace :=
    split ▸ notifiedSince_pos looked sends notice
  exact List.countP_pos_iff.1 (since.trans_le (notified_pending run condName q p asleep))

theorem no_lost_wakeup_two : ∃ trace s,
    Run .simple unary (shared 2) (Obeying (notifiesInside news board.1)) trace s ∧
      (s.process 0).main.asleep news = true ∧
      ∃ raw ∈ s.pending 1 0, raw.carries .condNotify news = true := by
  obtain ⟨trace, s, run, reached⟩ := exists_run .simple unary (shared 2)
    (Obeying (notifiesInside news board.1))
    [waitAndEnter, [(1, .notifyOne news), (1, .sendNotify)]].flatten
    (fun trace s => (s.process 0).main.asleep news && trace.head?.any fun entry =>
      (sentBy unary 1 0 entry.1 entry.2).any (·.carries .condNotify news)) (by decide +kernel)
  obtain ⟨asleep, sent⟩ := Bool.and_eq_true_iff.1 reached
  obtain ⟨entry, first, sends⟩ := (Option.any_eq_true ..).1 sent
  obtain ⟨earlier, split⟩ := List.head?_eq_some_iff.1 first
  obtain ⟨raw, member, notice⟩ := List.any_eq_true.1 sends
  have latest : trace = [] ++ entry :: earlier := split
  have notified := no_lost_wakeup run latest (by simp) member notice asleep
  exact ⟨trace, s, run, asleep, notified⟩

/-- Where a main thread is when only its program, or another one's, can go on. -/
inductive System.Rests (serialization : Serialization σ) (trace : Trace (System n σ) (Event n σ))
    (s : System n σ) (p : ProcessId n) : Prop where
  | running (main : (s.process p).main = .running)
  | asleep {call : WaitCall σ} (main : (s.process p).main = .blocked call false)
      (unnotified : ∀ q, notifiedSince serialization call.condName q p trace = 0)
  | heldUp {mutexName : MutexName} {q : ProcessId n} (other : q ≠ p)
      (collects : (s.process p).main.collecting? = some mutexName)
      (owned : (s.process q).owned mutexName = true)

def System.Stuck (communicator : Communicator) (serialization : Serialization σ)
    (s : System n σ) : Prop :=
  ∀ e, carriesOn s e = true → step communicator serialization s e = none

section
variable (stuck : s.Stuck communicator serialization)
include stuck

theorem System.Stuck.act (p : ProcessId n) (action : Action n σ)
    (on : carriesOn s (p, action) = true) (notReceive : ∀ source, action ≠ .receive source) :
    (s.process p).act serialization p action = none := by
  have nothing := stuck (p, action) on
  cases action with
  | receive source => exact absurd rfl (notReceive source)
  | _ => exact Option.map_eq_none_iff.1 nothing

theorem System.Stuck.unreleasing {mutexName : MutexName} {unanswered : PacketSet n}
    {caller : Caller σ} : (s.process p).main ≠ .releasing mutexName unanswered caller := by
  intro main
  cases requests : unanswered.packets with
  | nil =>
    have nothing := stuck.act p .released rfl (by simp)
    simp [Process.act, Process.released, main, requests] at nothing
  | cons request rest =>
    have nothing := stuck.act p (.answerDeferred request) rfl (by simp)
    simp [Process.act, Process.answerDeferred, main, requests] at nothing

theorem System.Stuck.listening (accepts : ∀ packet, (s.process p).receiving = .received packet →
      ∃ outcome, (s.process p).dispatch serialization p packet = .ok outcome) :
    (s.process p).receiving = .listening := by
  cases here : (s.process p).receiving with
  | listening => rfl
  | updating packet =>
    have nothing := stuck.act p .updateTimestamp rfl (by simp)
    simp [Process.act, Process.updateTimestamp, here] at nothing
  | received packet =>
    obtain ⟨outcome, dispatches⟩ := accepts packet here
    have nothing := stuck.act p .dispatch rfl (by simp)
    have free : (s.process p).mustWait packet = false := by
      unfold Process.mustWait
      cases main : (s.process p).main with
      | releasing => exact absurd main (stuck.unreleasing)
      | _ => rfl
    simp [Process.act, Process.dispatchReceived, here, free, dispatches, Except.toOption] at nothing

theorem System.Stuck.quiescent (listening : ∀ p, (s.process p).receiving = .listening) :
    s.Quiescent := by
  intro p q
  unfold System.pending
  rw [listening q]
  cases head : s.channel p q with
  | nil => rfl
  | cons raw rest =>
    have nothing := stuck (q, .receive p) rfl
    simp [step, System.receive, listening q, head] at nothing

end

theorem confirmed_of_quiet (run : Run communicator serialization setup contract trace s)
    (quiet : s.Quiescent) {call : WaitCall σ} {id : SubscriptionId} {received : PacketSet n}
    (main : (s.process p).main = .confirming call id received) : received.size = n - 1 := by
  obtain ⟨alone, sound⟩ := barrier_run run call.condName
  have confirmations : (s.process p).main.confirmations call.condName = received.senders := by
    rw [main, MainThread.confirmations, if_pos rfl]
  have closing : (s.process p).main.stage call.condName = .closing := by
    rw [main, MainThread.stage, if_pos rfl]
  have answered : ∀ q, q ≠ p → q ∈ received.senders := by
    intro q other
    have signals : (s.pair call.condName p q).signals = [] := by
      simp only [System.pair, quiet p q, List.filterMap_nil]
    have answers : (s.pair call.condName p q).mute.answers = [] := by
      simp only [Pair.mute, System.pair, quiet q p, List.filterMap_nil, List.filter_nil]
    rw [← confirmations]
    exact (sound p q (Ne.symm other)).answered closing signals answers
  have others : p ∉ received.senders := by
    rw [← confirmations]
    exact (alone p).unacknowledged
  have coherent := (wellFormed_run run p).coherent
  rw [main] at coherent
  exact (PacketSet.size_eq_iff coherent others).2 answered

theorem System.Stuck.rests (stuck : s.Stuck .simple serialization) (quiet : s.Quiescent)
    (once : ∀ trace s e, contract trace s e → acquiresOnce s e = true)
    (run : Run .simple serialization setup contract trace s) (p : ProcessId n) :
    s.Rests serialization trace p := by
  cases main : (s.process p).main with
  | running => exact .running main
  | queueing name id received caller =>
    have nothing := stuck.act p .queue rfl (by simp)
    simp [Process.act, Process.queue, main] at nothing
  | collecting name id received caller =>
    obtain ⟨a, inv, sim, -⟩ := simulated run name
      (fun _ _ _ run p => acquiring_unowned once run p)
      (fun (_ : True) _ _ e run _ => keepsVerdict_simple run e)
    have collects : (s.process p).main.collecting? = some name := by rw [main]; rfl
    rcases noDeadlock_of_ordered inv sim (owning_run run)
      (fun p => (wellFormed_run run p).coherent) quiet ⟨p, collects⟩ with
      ⟨q, owned⟩ | ⟨q, returns⟩
    · refine .heldUp (fun same => ?_) collects owned
      have unowned := acquiring_unowned once run p (acquiring_of_collecting collects)
      rw [← same] at unowned
      exact absurd owned (by simp [Process.isOwned, unowned])
    · have nothing := stuck.act q .acquired rfl (by simp)
      simp only [Process.act] at nothing
      simp [Process.canReturn, nothing] at returns
  | releasing name unanswered caller => exact absurd main stuck.unreleasing
  | announcing call =>
    have nothing := stuck.act p .announce rfl (by simp)
    simp [Process.act, Process.announce, main] at nothing
  | checking call =>
    have nothing := stuck.act p .evaluate rfl (by simp)
    simp only [Process.act, Process.evaluate, main] at nothing
    split_ifs at nothing
  | blocked call signalled =>
    cases signalled with
    | true =>
      have nothing := stuck.act p .wake (by simp [carriesOn, main]) (by simp)
      simp [Process.act, Process.wake, main] at nothing
    | false =>
      refine .asleep main fun q => Nat.le_zero.1 ?_
      have still := notified_pending run call.condName q p (by rw [main]; exact decide_eq_true rfl)
      rwa [quiet q p] at still
  | stopped call =>
    have nothing := stuck.act p .subscribeConfirmations rfl (by simp)
    simp [Process.act, Process.subscribeConfirmations, main] at nothing
  | ending call id received =>
    have nothing := stuck.act p .announceEnd rfl (by simp)
    simp [Process.act, Process.announceEnd, main] at nothing
  | confirming call id received =>
    have nothing := stuck.act p .waitReturns rfl (by simp)
    have complete := confirmed_of_quiet run quiet main
    simp [Process.act, Process.waitReturns, main, answersComplete, complete] at nothing
  | notifying name recipients =>
    have nothing := stuck.act p .sendNotify rfl (by simp)
    simp [Process.act, Process.sendNotify, main] at nothing
  | saved monitor data =>
    have nothing := stuck.act p .sendSync rfl (by simp)
    simp [Process.act, Process.sendSync, main] at nothing
  | synced monitor =>
    have nothing := stuck.act p .unlockMonitor rfl (by simp)
    simp [Process.act, Process.unlockMonitor, main] at nothing

theorem carriesOn_disciplined (on : carriesOn s e = true) :
    (disciplined usage s e && acquiresOnce s e) = true := by
  obtain ⟨self, action⟩ := e
  cases action <;> first | rfl | cases on

/-- A system whose programs call nothing more comes to rest, whatever the order of its steps:
within a bounded number of them it is where nothing more can happen, and there no packet is on
its way and every process rests. The programs have kept to their plan, and locked nothing that
they owned; waking up without a notification is no step here. -/
theorem comes_to_rest (ready : usage.Ready setup)
    (run : Run .simple serialization setup
      (Obeying fun s e => disciplined usage s e && acquiresOnce s e) trace s) :
    ∃ bound, ∀ later s', Execution (step .simple serialization) (· = s)
      (fun _ s e => carriesOn s e = true) later s' → later.length ≤ bound ∧
        (s'.Stuck .simple serialization →
          s'.Quiescent ∧ ∀ p, s'.Rests serialization (later ++ trace) p) := by
  obtain ⟨names, covered⟩ := covered_run run
  refine ⟨s.work names, fun later s' more => ⟨work_left (wellFormed_run run) covered more, ?_⟩⟩
  intro stuck
  have whole : Run .simple serialization setup
      (Obeying fun s e => disciplined usage s e && acquiresOnce s e) (later ++ trace) s' :=
    (more.weaken fun _ _ _ on => carriesOn_disciplined on).append run
  have planned : Run .simple serialization setup (Obeying (disciplined usage))
      (later ++ trace) s' :=
    whole.weaken fun _ _ _ may => (Bool.and_eq_true_iff.1 may).1
  have quiet : s'.Quiescent := stuck.quiescent fun p =>
    stuck.listening fun packet received => dispatch_planned ready planned received
  exact ⟨quiet, stuck.rests quiet (fun _ _ _ may => (Bool.and_eq_true_iff.1 may).2) whole⟩

theorem comes_to_rest_two : ∃ trace s, Run .simple unary (shared 2)
      (Obeying fun s e => disciplined sharedUsage s e && acquiresOnce s e) trace s ∧
    (s.process 0).main.asleep news = true ∧ (s.process 1).main.notifying? = some news ∧
    ∃ bound, ∀ later s', Execution (step .simple unary) (· = s)
      (fun _ s e => carriesOn s e = true) later s' → later.length ≤ bound ∧
        (s'.Stuck .simple unary →
          s'.Quiescent ∧ ∀ p, s'.Rests unary (later ++ trace) p) := by
  obtain ⟨trace, s, run, reached⟩ := exists_run .simple unary (shared 2)
    (Obeying fun s e => disciplined sharedUsage s e && acquiresOnce s e)
    [waitAndEnter, [(1, .notifyOne news)]].flatten
    (fun _ s => (s.process 0).main.asleep news && decide
      ((s.process 1).main.notifying? = some news)) (by decide +kernel)
  obtain ⟨asleep, notifies⟩ := Bool.and_eq_true_iff.1 reached
  exact ⟨trace, s, run, asleep, of_decide_eq_true notifies, comes_to_rest (shared_ready 2) run⟩

end DistributedMonitor
