import DistributedMonitor.Waiters

/-! Several notifications of one waiter each, in a row. Nobody is taken out of the table by
being notified, so all of them go to whoever is listed first. -/

namespace DistributedMonitor
open Library

variable {n : ℕ} {σ : Type} {communicator : Communicator} {serialization : Serialization σ}
  {setup : Setup n σ} {contract : Permission (System n σ) (Event n σ)}
  {trace later : Trace (System n σ) (Event n σ)} {s s' : System n σ}
  {condName : CondName} {self p q r : ProcessId n} {monitors : List MonitorName}
  {process process' : Process n σ} {action : Action n σ} {consumed : Option (Packet n)}
  {sent : List (Envelope n)} {packet first : Packet n} {rest : List (Packet n)}

/-- What the process does while it notifies one waiter after the other: it makes no other call,
and dispatches no wait on the condition variable and no end of one. -/
def Process.notifiesOnly (condName : CondName) (process : Process n σ) : Action n σ → Bool
  | .receive _ | .updateTimestamp | .sendNotify => true
  | .notifyOne other => other = condName
  | .dispatch =>
      match process.receiving with
      | .received packet => packet.raw.signal condName = none
      | _ => true
  | _ => false

def notifiesInRow (condName : CondName) (q : ProcessId n) (s : System n σ) (e : Event n σ) : Bool :=
  e.1 ≠ q || (s.process q).notifiesOnly condName e.2

def Action.notifiesOne (condName : CondName) : Action n σ → Bool
  | .notifyOne other => other = condName
  | _ => false

def notifyCalls (condName : CondName) (q : ProcessId n) (later : Trace (System n σ) (Event n σ)) :
    ℕ :=
  later.countP fun entry => entry.2.1 = q && entry.2.2.notifiesOne condName

def noticesTo (serialization : Serialization σ) (condName : CondName) (q r : ProcessId n)
    (later : Trace (System n σ) (Event n σ)) : ℕ :=
  (sentTo serialization q r later).countP (·.carries .condNotify condName)

/-- So many processes that are listed have each been sent a notification. -/
def NotifiesDistinct (serialization : Serialization σ) (condName : CondName) (q : ProcessId n)
    (s : System n σ) (later : Trace (System n σ) (Event n σ)) (k : ℕ) : Prop :=
  ∃ notified : Finset (ProcessId n), notified.card = k ∧ ∀ r ∈ notified,
    r ∈ ((s.process q).waits condName).senders ∧ 0 < noticesTo serialization condName q r later

inductive NoticeStep (condName : CondName) (first self : ProcessId n) (process : Process n σ) :
    Action n σ → Process n σ → List (Envelope n) → Prop where
  | quiet {action : Action n σ} {process' : Process n σ} {sent : List (Envelope n)}
      (other : action.notifiesOne condName = false)
      (same : process'.main = process.main)
      (silent : ∀ envelope ∈ sent, envelope.packet.messageType ≠ .condNotify) :
      NoticeStep condName first self process action process' sent
  | called {process' : Process n σ} (main : process.main = .running)
      (picked : process'.main = .notifying condName {first}) :
      NoticeStep condName first self process (.notifyOne condName) process' []
  | sent {process' : Process n σ} {recipients : Finset (ProcessId n)} {lamportTime : LamportTime}
      (main : process.main = .notifying condName recipients) (done : process'.main = .running) :
      NoticeStep condName first self process .sendNotify process'
        [⟨⟨lamportTime, self, .condNotify, condName⟩, recipients⟩]

theorem dispatched_notifying (does : Dispatched self packet monitors process process' sent)
    (settled : process.main = .running ∨ ∃ recipients, process.main = .notifying condName recipients) :
    process'.main = process.main ∧
      ∀ envelope ∈ sent, envelope.packet.messageType ≠ .condNotify := by
  have nobody : process.main.waitCall = none := by
    rcases settled with main | ⟨recipients, main⟩ <;> rw [main] <;> rfl
  cases does with
  | agreed | ended => exact ⟨rfl, by simp⟩
  | early _ main | counted _ main =>
    rcases settled with here | ⟨recipients, here⟩ <;> cases here.symm.trans main
  | notified _ waits => cases nobody.symm.trans waits
  | confirmed _ ends =>
    rcases settled with here | ⟨recipients, here⟩ <;> rw [here] at ends <;> cases ends
  | deferred | waiting | synced => exact ⟨rfl, List.forall_mem_nil _⟩

theorem noticeStep
    (does : ThreadStep serialization q monitors (s.process q) action consumed process' sent)
    (taken : step communicator serialization s (q, action) = some (s.update q (process', sent)))
    (packets : ((s.process q).waits condName).packets = first :: rest)
    (settled : (s.process q).main = .running ∨
      ∃ recipients, (s.process q).main = .notifying condName recipients)
    (may : (s.process q).notifiesOnly condName action = true) :
    NoticeStep condName first.source q (s.process q) action process' sent := by
  cases does with
  | dispatch received free dispatches does =>
    obtain ⟨same, silent⟩ := dispatched_notifying does settled
    exact .quiet rfl same silent
  | main does =>
    cases action with
    | notifyOne other =>
      obtain rfl : other = condName := of_decide_eq_true may
      have after := notifyOne_first packets taken
      rw [s.update_own] at after
      obtain ⟨main, -⟩ := step_call (fun _ => rfl) (by intro source; simp) taken
      cases does with
      | configured called => cases called
      | notify => exact .called main after
    | sendNotify =>
      cases does with
      | configured called => cases called
      | notify called => rcases called with called | called <;> cases called
      | sendNotify here =>
        rcases settled with main | ⟨recipients, main⟩
        · cases main.symm.trans here
        · cases main.symm.trans here
          exact .sent main rfl
    | dispatch => exact absurd rfl (mainStep_not_dispatch does)
    | receive source => cases does with
      | configured called => cases called
      | notify called => rcases called with called | called <;> cases called
    | updateTimestamp => cases does with
      | configured called => cases called
      | notify called => rcases called with called | called <;> cases called
    | _ => cases may

/-- After some calls of `notifyOne` the list is what it was, and all that was sent or is about to
be sent has gone to whoever is first in it. -/
structure InRow (serialization : Serialization σ) (condName : CondName) (q : ProcessId n)
    (waits : StampedSet n) (first : ProcessId n) (later : Trace (System n σ) (Event n σ))
    (s : System n σ) : Prop where
  waits : (s.process q).waits condName = waits
  settled : (s.process q).main = .running ∨ (s.process q).main = .notifying condName {first}
  notices : ∀ r, noticesTo serialization condName q r later +
    (if r ∈ (s.process q).main.recipients condName then 1 else 0) =
      if r = first then notifyCalls condName q later else 0

theorem noticesTo_cons (e : Event n σ) :
    noticesTo serialization condName q r ((s, e) :: later) =
      noticesTo serialization condName q r later +
        (sentBy serialization q r s e).countP (·.carries .condNotify condName) :=
  List.countP_append

theorem notifyCalls_cons (e : Event n σ) : notifyCalls condName q ((s, e) :: later) =
    notifyCalls condName q later + if e.1 = q && e.2.notifiesOne condName then 1 else 0 :=
  List.countP_cons

theorem sentBy_updateTimestamp : sentBy serialization p q s (self, .updateTimestamp) = [] := by
  unfold sentBy
  split_ifs
  · simp only [Process.act]
    cases (s.process p).updateTimestamp <;> rfl
  · rfl

theorem count_silent (r : ProcessId n)
    (silent : ∀ envelope ∈ sent, envelope.packet.messageType ≠ .condNotify) :
    (addressed sent r).countP (·.carries .condNotify condName) = 0 := by
  apply List.countP_eq_zero.2
  intro raw member carries
  obtain ⟨envelope, listed, -, rfl⟩ := mem_addressed member
  exact silent envelope listed (RawPacket.carries_iff.1 carries).1

section
variable {waits : StampedSet n}

theorem InRow.quiet {e : Event n σ} (row : InRow serialization condName q waits p later s)
    (kept : (s'.process q).waits condName = (s.process q).waits condName)
    (same : (s'.process q).main = (s.process q).main)
    (other : (e.1 = q && e.2.notifiesOne condName) = false)
    (silent : ∀ r, (sentBy serialization q r s e).countP (·.carries .condNotify condName) = 0) :
    InRow serialization condName q waits p ((s, e) :: later) s' where
  waits := kept.trans row.waits
  settled := same.symm ▸ row.settled
  notices r := by
    rw [noticesTo_cons, notifyCalls_cons, silent, other, same]
    exact row.notices r

theorem InRow.acts (wf : s.WellFormed setup)
    (row : InRow serialization condName q waits first.source later s)
    (packets : waits.packets = first :: rest)
    (does : ThreadStep serialization q monitors (s.process q) action consumed process' sent)
    (taken : step communicator serialization s (q, action) = some (s.update q (process', sent)))
    (may : (s.process q).notifiesOnly condName action = true) :
    InRow serialization condName q waits first.source ((s, (q, action)) :: later)
      (s.update q (process', sent)) := by
  have sends : ∀ r, sentBy serialization q r s (q, action) = addressed sent r :=
    fun r => (sentBy_acts does taken q r).trans (if_pos rfl)
  have kept : process'.waits condName = (s.process q).waits condName := by
    rcases waits_step condName (wf q) does with ⟨same, -⟩ | ⟨packet, consumes, named, changes⟩
    · exact same
    · subst consumes
      cases does with
      | dispatch received =>
        simp only [Process.notifiesOnly, received, decide_eq_true_eq, RawPacket.signal,
          Packet.raw, named, if_true] at may
        rcases changes with type | ⟨type, -⟩ <;> rw [type] at may <;> cases may
  have settled : (s.process q).main = .running ∨
      ∃ recipients, (s.process q).main = .notifying condName recipients :=
    row.settled.imp_right fun main => ⟨_, main⟩
  have own := s.update_own q process' sent
  cases noticeStep does taken (row.waits ▸ packets) settled may with
  | quiet other same silent =>
    apply row.quiet (by rw [own, kept]) (by rw [own, same]) (by simp [other])
    intro r
    rw [sends]
    exact count_silent r silent
  | called main picked =>
    refine ⟨by rw [own, kept, row.waits], .inr (by rw [own, picked]), fun r => ?_⟩
    have notices := row.notices r
    rw [noticesTo_cons, notifyCalls_cons, sends, own, picked]
    rw [main] at notices
    simp only [MainThread.recipients, Finset.notMem_empty, if_false, Nat.add_zero] at notices
    simp only [MainThread.recipients, if_true, Finset.mem_singleton, addressed, List.filter_nil,
      List.map_nil, List.countP_nil, Action.notifiesOne, decide_true, Bool.and_self, notices]
    split_ifs <;> rfl
  | sent main done =>
    refine ⟨by rw [own, kept, row.waits], .inl (by rw [own, done]), fun r => ?_⟩
    have notices := row.notices r
    rw [noticesTo_cons, notifyCalls_cons, sends, own, done, addressed_singleton]
    simp only [main, MainThread.recipients, if_true] at notices
    simp only [MainThread.recipients, Finset.notMem_empty, if_false, Action.notifiesOne,
      Bool.and_false, Bool.false_eq_true, Nat.add_zero, ← notices]
    split_ifs <;> simp [RawPacket.carries, Packet.raw]

theorem inRow_run (run : Run communicator serialization setup contract trace s)
    (main : (s.process q).main = .running)
    (packets : ((s.process q).waits condName).packets = first :: rest)
    (continued : Execution (step communicator serialization) (· = s)
      (Obeying (notifiesInRow condName q)) later s') :
    InRow serialization condName q ((s.process q).waits condName) first.source later s' := by
  have both : s'.WellFormed setup ∧
      InRow serialization condName q ((s.process q).waits condName) first.source later s' := by
    apply continued.history_invariant (I := fun later s' => s'.WellFormed setup ∧
      InRow serialization condName q ((s.process q).waits condName) first.source later s')
    · rintro _ rfl
      refine ⟨wellFormed_run run, rfl, .inl main, fun r => ?_⟩
      simp [noticesTo, notifyCalls, sentTo, chronicle, main, MainThread.recipients]
    · intro later s₁ e s₂ _ both may taken
      obtain ⟨wf, row⟩ := both
      have taken' := systemStep wf taken
      refine ⟨wf.step taken', ?_⟩
      cases taken' with
      | @receive self source =>
        apply row.quiet (read_update (·.waits condName) (by rfl) q)
          (read_update (·.main) (by rfl) q) (by simp [Action.notifiesOne])
        intro r
        rw [sentBy_receive]
        rfl
      | @updateTimestamp self =>
        apply row.quiet (read_update (·.waits condName) (by rfl) q)
          (read_update (·.main) (by rfl) q) (by simp [Action.notifiesOne])
        intro r
        rw [sentBy_updateTimestamp]
        rfl
      | @acts self action consumed process' sent does =>
        by_cases mine : self = q
        · subst mine
          apply row.acts wf packets does taken
          have own : notifiesInRow condName self s₁ (self, action) = true := may
          simpa [notifiesInRow] using own
        · have others := s₁.update_other (Ne.symm mine) process' sent
          apply row.quiet (by rw [others]) (by rw [others]) (by simp [mine])
          intro r
          rw [sentBy_acts does taken, sentFrom, if_neg (Ne.symm mine)]
          rfl
  exact both.2

end

/-- So many notifications in a row reach so many waiters just when there is at most one. -/
theorem notifies_distinct_iff {k : ℕ} (run : Run communicator serialization setup contract trace s)
    (main : (s.process q).main = .running)
    (listed : k ≤ ((s.process q).waits condName).senders.toFinset.card)
    (continued : Execution (step communicator serialization) (· = s)
      (Obeying (notifiesInRow condName q)) later s')
    (calls : notifyCalls condName q later = k) (returned : (s'.process q).main = .running) :
    NotifiesDistinct serialization condName q s later k ↔ k ≤ 1 := by
  cases packets : ((s.process q).waits condName).packets with
  | nil =>
    rw [StampedSet.senders, packets] at listed
    have none' : k = 0 := Nat.le_zero.1 listed
    exact iff_of_true ⟨∅, none'.symm, by simp⟩ (none'.trans_le (Nat.zero_le 1))
  | cons first rest =>
    have notices : ∀ r, noticesTo serialization condName q r later =
        if r = first.source then k else 0 := by
      intro r
      have row := (inRow_run run main packets continued).notices r
      rwa [returned, calls] at row
    constructor
    · intro distinct
      obtain ⟨notified, size, reached⟩ := distinct
      have only : notified ⊆ {first.source} := by
        intro r member
        have sent := (reached r member).2
        rw [notices r] at sent
        apply Finset.mem_singleton.2
        by_contra other
        rw [if_neg other] at sent
        omega
      exact size ▸ Finset.card_le_card only
    · intro few
      rcases Nat.le_one_iff_eq_zero_or_eq_one.1 few with rfl | rfl
      · exact ⟨∅, rfl, by simp⟩
      · refine ⟨{first.source}, rfl, fun r member => ?_⟩
        rw [notices r, if_pos (Finset.mem_singleton.1 member), Finset.mem_singleton.1 member,
          StampedSet.senders, packets]
        exact ⟨List.mem_cons_self .., Nat.zero_lt_one⟩

def MainThread.isRunning : MainThread n σ → Bool
  | .running => true
  | _ => false

theorem MainThread.running_of {main : MainThread n σ} (runs : main.isRunning = true) :
    main = .running := by
  cases main with
  | running => rfl
  | _ => cases runs

theorem exists_continued (communicator : Communicator) (serialization : Serialization σ)
    (setup : Setup n σ) (rule after : System n σ → Event n σ → Bool)
    (events more : List (Event n σ))
    (check : System n σ → Trace (System n σ) (Event n σ) → System n σ → Bool)
    (passes : (replay (step communicator serialization) (Obeying rule) [] setup.system events).any
      (fun last => (replay (step communicator serialization) (Obeying after) [] last.2 more).any
        fun final => check last.2 final.1 final.2) = true) :
    ∃ trace s later s', Run communicator serialization setup (Obeying rule) trace s ∧
      Execution (step communicator serialization) (· = s) (Obeying after) later s' ∧
      check s later s' = true := by
  obtain ⟨trace, s, run, continued⟩ := exists_run communicator serialization setup (Obeying rule)
    events (fun _ s => (replay (step communicator serialization) (Obeying after) [] s more).any
      fun final => check s final.1 final.2) passes
  obtain ⟨later, s', continued, passed⟩ := exists_execution (step communicator serialization) s
    (Obeying after) more (check s) continued
  exact ⟨trace, s, later, s', run, continued, passed⟩

def bothWait : List (Event 3 ℕ) :=
  [[(0, .lock board.1), (0, .queue)], deliver 0 1, deliver 0 2, deliver 1 0, deliver 2 0,
    [(0, .acquired), (0, .wait news board.1 (· == 1)), (0, .announce)], deliver 0 1, deliver 0 2,
    [(0, .evaluate), (0, .released), (1, .lock board.1), (1, .queue)], deliver 1 0, deliver 1 2,
    deliver 0 1, deliver 2 1, [(1, .acquired), (1, .wait news board.1 (· == 1)), (1, .announce)],
    deliver 1 2].flatten

theorem notifies_distinct_one : ∃ trace s later s',
    Run .simple unary (shared 3) (Obeying acquiresOnce) trace s ∧
      Execution (step .simple unary) (· = s) (Obeying (notifiesInRow news 2)) later s' ∧
      ((s.process 2).waits news).senders.toFinset = {0, 1} ∧
      NotifiesDistinct unary news 2 s later 1 := by
  obtain ⟨trace, s, later, s', run, continued, reached⟩ := exists_continued .simple unary
    (shared 3) acquiresOnce (notifiesInRow news 2) bothWait [(2, .notifyOne news), (2, .sendNotify)]
    (fun s later s' => (s.process 2).main.isRunning ∧
      ((s.process 2).waits news).senders.toFinset = {0, 1} ∧
      notifyCalls news 2 later = 1 ∧ (s'.process 2).main.isRunning)
    (by decide +kernel)
  obtain ⟨main, waiting, calls, returned⟩ := of_decide_eq_true reached
  refine ⟨trace, s, later, s', run, continued, waiting, ?_⟩
  exact (notifies_distinct_iff run (MainThread.running_of main) (by rw [waiting]; decide)
    continued calls (MainThread.running_of returned)).2 le_rfl

/-- Two notifications in a row both go to the first of the two. -/
theorem notifies_same_three : ¬∀ trace s later s' k,
    Run .simple unary (shared 3) (Obeying acquiresOnce) trace s →
    (s.process 2).main = .running →
    k ≤ ((s.process 2).waits news).senders.toFinset.card →
    Execution (step .simple unary) (· = s) (Obeying (notifiesInRow news 2)) later s' →
    notifyCalls news 2 later = k → (s'.process 2).main = .running →
    NotifiesDistinct unary news 2 s later k := by
  intro distinct
  obtain ⟨trace, s, later, s', run, continued, reached⟩ := exists_continued .simple unary
    (shared 3) acquiresOnce (notifiesInRow news 2) bothWait
    [(2, .notifyOne news), (2, .sendNotify), (2, .notifyOne news), (2, .sendNotify)]
    (fun s later s' => (s.process 2).main.isRunning ∧
      ((s.process 2).waits news).senders.toFinset = {0, 1} ∧
      notifyCalls news 2 later = 2 ∧ (s'.process 2).main.isRunning ∧
      ∀ r : ProcessId 3, 0 < noticesTo unary news 2 r later → r = 0)
    (by decide +kernel)
  obtain ⟨main, waiting, calls, returned, only⟩ := of_decide_eq_true reached
  obtain ⟨notified, size, each⟩ := distinct trace s later s' 2 run
    (MainThread.running_of main) (by rw [waiting]; decide) continued calls
    (MainThread.running_of returned)
  have same : notified ⊆ {0} := fun r member => Finset.mem_singleton.2 (only r (each r member).2)
  have few := Finset.card_le_card same
  rw [size, Finset.card_singleton] at few
  omega

end DistributedMonitor
