import DistributedMonitor.Notification
import DistributedMonitor.WaitingEntry

/-! The replicas of a monitor seen as one variable: whoever holds the mutex has the state that
was assigned last, by whichever process. -/

namespace DistributedMonitor
open Library

variable {n : ℕ} {σ : Type} {communicator : Communicator} {serialization : Serialization σ}
  {setup : Setup n σ} {contract : Permission (System n σ) (Event n σ)}
  {trace : Trace (System n σ) (Event n σ)} {s s' : System n σ} {e : Event n σ}
  {self p q : ProcessId n} {monitors : List MonitorName} {process process' : Process n σ}
  {action : Action n σ} {consumed : Option (Packet n)} {sent : List (Envelope n)}
  {mutexName : MutexName} {monitor : MonitorName} {initial : σ}

def assignedTo (monitor : MonitorName) (_ : System n σ) (e : Event n σ) : Option σ :=
  match e.2 with
  | .assign name state => if name = monitor.1 then some state else none
  | _ => none

def lastAssigned (monitor : MonitorName) (initial : σ) (trace : Trace (System n σ) (Event n σ)) : σ :=
  (recorded (assignedTo monitor) trace).headD initial

structure Current (monitor : MonitorName) (initial : σ) (trace : Trace (System n σ) (Event n σ))
    (s : System n σ) : Prop where
  held : ∀ p, (s.process p).holds monitor.1 = true →
    (s.process p).state monitor.1 = lastAssigned monitor initial trace
  free : (∀ p, (s.process p).holds monitor.1 = false) →
    lastReleased monitor initial trace = lastAssigned monitor initial trace

theorem lastAssigned_none (nothing : assignedTo monitor s e = none) :
    lastAssigned monitor initial ((s, e) :: trace) = lastAssigned monitor initial trace := by
  rw [lastAssigned, recorded_none nothing]
  rfl

theorem lastAssigned_some {state : σ} (assigns : assignedTo monitor s e = some state) :
    lastAssigned monitor initial ((s, e) :: trace) = state := by
  rw [lastAssigned, recorded_some assigns]
  rfl

theorem assignedTo_none (other : ∀ state, action ≠ .assign monitor.1 state) :
    assignedTo monitor s (self, action) = none := by
  cases action with
  | assign name state => exact if_neg fun same => other state (by rw [same])
  | _ => rfl

theorem assignedTo_self (state : σ) :
    assignedTo monitor s (self, .assign monitor.1 state) = some state :=
  if_pos rfl

theorem holds_unlock (process : Process n σ) (name : MutexName) (caller : Caller σ)
    (holds : (process.unlock name caller).holds mutexName = true) :
    process.owned mutexName = true ∧ name ≠ mutexName := by
  obtain ⟨owned, unreleased⟩ := holds_iff.1 holds
  rw [unlock_owned] at owned
  refine ⟨owned, ?_⟩
  rintro rfl
  apply unreleased
  rw [Process.unlock, Process.isOwned, if_pos owned]
  rfl

theorem holds_step
    (does : ThreadStep serialization self monitors process action consumed process' sent)
    (holds : process'.holds mutexName = true) : process.holds mutexName = true ∨
      action = .acquired ∧ process.main.collecting? = some mutexName := by
  obtain ⟨owned, unreleased⟩ := holds_iff.1 holds
  have before : process.owned mutexName = true → process.main.releasing? ≠ some mutexName →
      process.holds mutexName = true ∨
        action = .acquired ∧ process.main.collecting? = some mutexName :=
    fun owned unreleased => .inl (holds_iff.2 ⟨owned, unreleased⟩)
  cases does with
  | main does =>
    cases does with
    | configured | assign => exact before owned unreleased
    | answerDeferred here =>
      refine before owned ?_
      rw [here]
      exact unreleased
    | unlock here | retry here | unlockMonitor here =>
      exact before (holds_unlock process _ _ holds).1 (by simp [here, MainThread.releasing?])
    | @acquired name id received caller here =>
      change Function.update process.owned name true mutexName = true at owned
      by_cases same : mutexName = name
      · exact .inr ⟨rfl, by rw [here, same]; rfl⟩
      · rw [Function.update_of_ne same] at owned
        exact before owned (by simp [here, MainThread.releasing?])
    | @released name unanswered caller here =>
      change Function.update process.owned name false mutexName = true at owned
      by_cases same : mutexName = name
      · rw [same, Function.update_self] at owned
        cases owned
      · rw [Function.update_of_ne same] at owned
        refine before owned ?_
        rw [here]
        exact fun releasing => same (Option.some.inj releasing).symm
    | notify _ here same picked =>
      refine before ?_ (by simp [here, MainThread.releasing?])
      rcases picked with rfl | ⟨recipients, rfl, -⟩ <;> exact owned
    | lock here | wait here | queue here | announce here | stop here | wake here
    | subscribeConfirmations here | announceEnd here | waitReturns here | sendNotify here
    | leave here | sendSync here =>
      exact before owned (by simp [here, MainThread.releasing?])
  | dispatch received free dispatches does =>
    cases does with
    | early type here | counted type here =>
      exact before owned (by simp [here, MainThread.releasing?])
    | notified => exact before owned (releasing_signal process.main _ ▸ unreleased)
    | confirmed => exact before owned (releasing_confirm process.main _ _ ▸ unreleased)
    | _ => exact before owned unreleased

theorem unlock_holds (process : Process n σ) {name : MutexName} (caller : Caller σ)
    (owned : process.owned mutexName = true) (other : name ≠ mutexName) :
    (process.unlock name caller).holds mutexName = true := by
  refine holds_iff.2 ⟨unlock_owned process name caller ▸ owned, ?_⟩
  have elsewhere : some name ≠ some mutexName := fun same => other (Option.some.inj same)
  unfold Process.unlock
  split_ifs
  · exact elsewhere
  · cases caller <;> exact nofun

theorem holds_lost (wf : s.WellFormed setup)
    (taken : step communicator serialization s (self, action) = some s')
    (holds : (s.process self).holds monitor.1 = true)
    (lost : (s'.process self).holds monitor.1 = false) :
    action = .unlock monitor.1 ∨ releasesMonitor monitor s (self, action) = true := by
  obtain ⟨owned, unreleased⟩ := holds_iff.1 holds
  have kept : (s'.process self).owned monitor.1 = true →
      (s'.process self).main.releasing? ≠ some monitor.1 →
      action = .unlock monitor.1 ∨ releasesMonitor monitor s (self, action) = true := by
    intro owned unreleased
    rw [holds_iff.2 ⟨owned, unreleased⟩] at lost
    cases lost
  cases systemStep wf taken with
  | receive | updateTimestamp =>
    simp only [System.update, Function.update_self] at kept
    exact kept owned unreleased
  | @acts self action consumed process' sent does =>
    rw [System.update_own] at kept lost
    cases does with
    | main does =>
      cases does with
      | configured | assign => exact kept owned unreleased
      | answerDeferred here =>
        rw [here] at unreleased
        exact kept owned unreleased
      | @unlock name here =>
        by_cases same : name = monitor.1
        · exact .inl (by rw [same])
        · rw [unlock_holds (s.process self) .program owned same] at lost
          cases lost
      | @retry call here =>
        by_cases same : call.mutex = monitor.1
        · refine .inr ?_
          by_contra keeps
          have blocks : blocksIn monitor s (self, .evaluate) = false :=
            Bool.eq_false_of_not_eq_true keeps
          have stopped := stops_unblocked blocks here same taken
          rw [System.update_own] at stopped
          have main : (((s.process self).unlock call.mutex (.wait call)).main).releasing? = none := by
            rw [stopped]
            rfl
          rw [same] at main
          rw [Process.unlock, Process.isOwned, if_pos owned] at main
          cases main
        · rw [unlock_holds (s.process self) (.wait call) owned same] at lost
          cases lost
      | @unlockMonitor other here =>
        by_cases same : other = monitor
        · refine .inr ?_
          simp only [releasesMonitor, here, same, decide_true]
        · rw [unlock_holds (s.process self) .program owned fun equal => same (Subtype.ext equal)]
            at lost
          cases lost
      | @acquired name id received caller here =>
        refine kept ?_ (by cases caller <;> exact fun releases => by cases releases)
        change Function.update (s.process self).owned name true monitor.1 = true
        rw [Function.update_apply, owned, ite_self]
      | @released name unanswered caller here =>
        have other : monitor.1 ≠ name := by
          rintro rfl
          apply unreleased
          rw [here]
          rfl
        refine kept ?_ (by cases caller <;> exact fun releases => by cases releases)
        exact (Function.update_of_ne other ..).trans owned
      | notify _ here same picked =>
        rcases picked with rfl | ⟨recipients, rfl, -⟩
        · exact kept owned unreleased
        · exact kept owned fun releases => by cases releases
      | _ => exact kept owned fun releases => by cases releases
    | dispatch received free dispatches does =>
      cases does with
      | early | counted => exact kept owned fun releases => by cases releases
      | notified => exact kept owned ((releasing_signal _ _).symm ▸ unreleased)
      | confirmed => exact kept owned ((releasing_confirm _ _ _).symm ▸ unreleased)
      | _ => exact kept owned unreleased

section
variable (entries : ∀ trace s (e : Event n σ), contract trace s e →
  entriesThatWait monitor s e = true)
include entries

theorem held_step (run : Run .simple serialization setup contract trace s)
    (may : contract trace s (self, action))
    (holds : (s.process self).holds monitor.1 = true)
    (held : (s.process self).state monitor.1 = lastAssigned monitor initial trace)
    (does : ThreadStep serialization self (setup.monitors self) (s.process self) action consumed
      process' sent) :
    process'.state monitor.1 = lastAssigned monitor initial ((s, (self, action)) :: trace) := by
  have enters := entries_enter entries
  cases does with
  | main does =>
    have acts : ThreadStep serialization self [] (s.process self) action none process' sent :=
      .main does
    by_cases assigns : ∃ state, action = .assign monitor.1 state
    · obtain ⟨state, rfl⟩ := assigns
      rw [lastAssigned_some (assignedTo_self state)]
      cases does with
      | configured called => cases called
      | notify called => rcases called with called | called <;> cases called
      | assign => exact Function.update_self ..
    · rw [lastAssigned_none (assignedTo_none fun state other => assigns ⟨state, other⟩), ← held]
      rcases state_step acts nofun with same | ⟨name, state, rfl, -, rfl⟩
      · rw [same]
      · exact Function.update_of_ne (fun same => assigns ⟨state, by rw [same]⟩) ..
  | dispatch received free dispatches does =>
    rw [state_of_holder enters run holds received does, held]
    exact (lastAssigned_none rfl).symm

theorem assigned_held
    (may : contract trace s e) (taken : step .simple serialization s e = some s')
    (assigns : assignedTo monitor s e ≠ none) : (s.process e.1).holds monitor.1 = true := by
  obtain ⟨self, action⟩ := e
  cases action with
  | assign name state =>
    have rule := entries trace s _ may
    obtain ⟨outcome, acts, -⟩ := step_act (by simp) taken
    obtain ⟨main, -⟩ := call_some acts
    by_cases mine : name = monitor.1
    · have owned := (of_decide_eq_true rule).resolve_left (not_not.2 mine)
      exact holds_iff.2 ⟨owned, by rw [main]; exact nofun⟩
    · exact absurd (if_neg mine) assigns
  | _ => exact absurd rfl assigns

theorem Current.acquired (current : Current monitor initial trace s)
    (rep : Replicated serialization monitor initial trace s)
    (ret : Retained monitor initial trace s)
    (run : Run .simple serialization setup contract trace s)
    {id : SubscriptionId} {received : PacketSet n} {caller : Caller σ}
    (main : (s.process self).main = .collecting monitor.1 id received caller)
    (complete : received.size = n - 1)
    (nobody : ∀ p, (s.process p).holds monitor.1 = false) :
    (s.process self).state monitor.1 = lastAssigned monitor initial trace := by
  obtain ⟨unleft, latest⟩ := latest_acquired entries rep run main complete
  rw [latest, ← current.free nobody]
  refine (ret.released fun q synced => ?_).symm
  have leaving := unleft q
  rw [synced] at leaving
  cases leaving

theorem Current.step (current : Current monitor initial trace s)
    (rep : Replicated serialization monitor initial trace s)
    (ret : Retained monitor initial trace s)
    (run : Run .simple serialization setup contract trace s) (may : contract trace s e)
    (taken : step .simple serialization s e = some s') :
    Current monitor initial ((s, e) :: trace) s' := by
  have once := enters_once (entries_enter entries)
  have run' : Run .simple serialization setup contract ((s, e) :: trace) s' := run.next may taken
  have wf := wellFormed_run run
  have others : ∀ p, p ≠ e.1 → s'.process p = s.process p := by
    intro p other
    cases systemStep wf taken <;> exact Function.update_of_ne other ..
  constructor
  · intro p holds
    by_cases mine : p = e.1
    · subst mine
      obtain ⟨self, action⟩ := e
      cases systemStep wf taken with
      | receive | updateTimestamp =>
        simp only [System.update, Function.update_self] at holds ⊢
        rw [lastAssigned_none rfl]
        exact current.held _ holds
      | @acts self action consumed process' sent does =>
        rw [System.update_own] at holds ⊢
        rcases holds_step does holds with before | ⟨rfl, collects⟩
        · exact held_step entries run may before (current.held _ before) does
        · have unheld : ∀ q, (s.process q).holds monitor.1 = false := by
            intro q
            refine Bool.eq_false_of_not_eq_true fun second => ?_
            have unowned := acquiring_unowned once run self (acquiring_of_collecting collects)
            by_cases own : q = self
            · rw [own, Process.holds, unowned] at second
              cases of_decide_eq_true second |>.1
            · rw [← others q own] at second
              rw [← s.update_own self process' sent] at holds
              exact own (holder_unique once run' second holds)
          rw [lastAssigned_none rfl]
          cases does with
          | main does =>
            cases does with
            | configured called => cases called
            | notify called => rcases called with called | called <;> cases called
            | acquired main complete =>
              rw [main] at collects
              cases collects
              exact current.acquired entries rep ret run main complete unheld
    · rw [others p mine] at holds ⊢
      rw [lastAssigned_none]
      · exact current.held p holds
      · by_contra assigns
        exact mine (holder_unique once run holds (assigned_held entries may taken assigns))
  · intro nobody
    have assigned : (s.process e.1).holds monitor.1 = true ∨ assignedTo monitor s e = none :=
      or_iff_not_imp_right.2 (assigned_held entries may taken)
    by_cases holds : (s.process e.1).holds monitor.1 = true
    · have releases : releasesMonitor monitor s e = true := by
        refine (holds_lost wf taken holds (nobody e.1)).resolve_left fun unlocks => ?_
        have rule := entries trace s e may
        rw [entriesThatWait, unlocks] at rule
        exact of_decide_eq_true rule rfl
      have shows : releasedWith monitor s e = some ((s.process e.1).state monitor.1) :=
        if_pos releases
      rw [lastReleased, recorded_some shows, List.headD_cons, current.held _ holds,
        lastAssigned_none]
      obtain ⟨self, action⟩ := e
      cases action with
      | assign name state => cases releases
      | _ => rfl
    · have released : releasedWith monitor s e = none :=
        if_neg fun releases => holds (releasing_silent entries run releases)
      rw [lastReleased, recorded_none released, lastAssigned_none (assigned.resolve_left holds)]
      refine current.free fun p => ?_
      by_cases mine : p = e.1
      · exact mine ▸ Bool.eq_false_of_not_eq_true holds
      · rw [← others p mine]
        exact nobody p

theorem current_run (shares : ∀ p, setup.monitors p = [monitor])
    (alike : ∀ p, setup.state p monitor.1 = initial)
    (restores : ∀ old state,
      serialization.restoreState monitor old (serialization.saveState monitor state) = state)
    (orders : ∀ trace s (e : Event n σ), Run .simple serialization setup contract trace s →
      contract trace s e → syncsInOrder monitor trace s e = true)
    (unchanged : ∀ trace s (e : Event n σ), contract trace s e →
      BlocksUnchanged monitor initial trace s e)
    (run : Run .simple serialization setup contract trace s) : Current monitor initial trace s := by
  apply run.history_invariant (I := Current monitor initial)
  · rintro _ rfl
    refine ⟨fun p holds => ?_, fun _ => rfl⟩
    cases holds
  · intro trace s e s' run current may taken
    obtain ⟨rep, ret⟩ := retained_run entries shares alike restores orders unchanged run
    exact current.step entries rep ret run may taken

end

/-- Two processes share one variable: between getting the mutex and giving it up, in an entry or
in a wait, a process has the state that was assigned last by either of them. -/
theorem one_variable {setup : Setup 2 σ} {trace : Trace (System 2 σ) (Event 2 σ)}
    {s : System 2 σ} (shares : ∀ p, setup.monitors p = [monitor])
    (alike : ∀ p, setup.state p monitor.1 = initial)
    (restores : ∀ old state,
      serialization.restoreState monitor old (serialization.saveState monitor state) = state)
    (run : Run .simple serialization setup (blockingUnchanged monitor initial) trace s)
    {p : ProcessId 2} (holds : (s.process p).holds monitor.1 = true) :
    (s.process p).state monitor.1 = lastAssigned monitor initial trace := by
  have current := current_run (fun _ _ _ may => may.1) shares alike restores
    (fun trace s e run may => syncsInOrder_two run may.2.2) (fun trace s e may => may.2.1) run
  exact current.held p holds

theorem one_variable_two : ∃ trace s,
    Run .simple unary (shared 2) (blockingUnchanged board 0) trace s ∧
      (s.process 0).main.waitCall.isSome ∧ (s.process 0).holds board.1 = true ∧
      lastAssigned board 0 trace = 5 ∧ (s.process 0).state board.1 = 5 := by
  obtain ⟨trace, s, run, reached⟩ := exists_run .simple unary (shared 2) (blockingUnchanged board 0)
    [waitAndEnter, [(1, .assign board.1 5), (1, .leave board), (1, .sendSync), (1, .unlockMonitor),
      (1, .released), (0, .wake), (0, .queue)], deliver 0 1, deliver 1 0, deliver 1 0,
      [(0, .acquired)]].flatten
    (fun trace s => (s.process 0).main.waitCall.isSome ∧ (s.process 0).holds board.1 = true ∧
      lastAssigned board 0 trace = 5) (by decide +kernel)
  obtain ⟨waits, holds, assigned⟩ := of_decide_eq_true reached
  have state := one_variable (by decide) (fun p => rfl) (fun old state => List.length_replicate)
    run holds
  exact ⟨trace, s, run, waits, holds, assigned, state.trans assigned⟩

end DistributedMonitor
