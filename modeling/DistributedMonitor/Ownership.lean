import DistributedMonitor.Pending

/-! What a process owns, what it has queued for and where its main thread stands fit
together at every step, whatever the program does. -/

namespace DistributedMonitor
open Library

variable {n : ℕ} {σ : Type} {communicator : Communicator} {serialization : Serialization σ}
  {setup : Setup n σ} {self : ProcessId n} {monitors : List MonitorName}
  {process process' : Process n σ} {action : Action n σ} {consumed : Option (Packet n)}
  {sent : List (Envelope n)} {packet : Packet n} {s s' : System n σ} {e : Event n σ}

def MainThread.collecting? : MainThread n σ → Option MutexName
  | .collecting mutexName _ _ _ => some mutexName
  | _ => none

def MainThread.Owning (owned : MutexName → Bool) (queuedMutexes : MutexName → Option LamportTime) :
    MainThread n σ → Prop
  | .collecting mutexName _ _ _ => (queuedMutexes mutexName).isSome
  | .releasing mutexName _ _ => owned mutexName = true
  | .announcing call | .checking call | .stopped call | .ending call _ _ | .confirming call _ _ =>
      owned call.mutex = true
  | .blocked call _ => owned call.mutex = false
  | _ => True

/-- A process has queued for what it owns and for what it is about to own, and for nothing else. -/
structure Process.Owning (process : Process n σ) : Prop where
  queued : ∀ mutexName, process.owned mutexName = true →
    (process.queuedMutexes mutexName).isSome
  owner : ∀ mutexName, (process.queuedMutexes mutexName).isSome →
    process.owned mutexName = true ∨ process.main.collecting? = some mutexName
  main : process.main.Owning process.owned process.queuedMutexes

theorem collecting_confirm (main : MainThread n σ) (condName : CondName) :
    (main.confirm condName packet).collecting? = main.collecting? :=
  read_confirm MainThread.collecting? (fun _ _ _ _ => rfl) (fun _ _ _ _ => rfl) main condName

theorem owning_confirm {owned : MutexName → Bool} {queued : MutexName → Option LamportTime}
    {main : MainThread n σ} (own : main.Owning owned queued) (condName : CondName) :
    (main.confirm condName packet).Owning owned queued := by
  cases main with
  | ending call id received | confirming call id received =>
    simp only [MainThread.confirm]
    split_ifs <;> exact own
  | _ => exact own

namespace Process.Owning

theorem moved (own : process.Owning) (owned : process'.owned = process.owned)
    (queued : process'.queuedMutexes = process.queuedMutexes)
    (collects : process.main.collecting? = none ∨
      process'.main.collecting? = process.main.collecting?)
    (main : process'.main.Owning process.owned process.queuedMutexes) : process'.Owning where
  queued mutexName := by
    rw [owned, queued]
    exact own.queued mutexName
  owner mutexName := by
    rw [owned, queued]
    intro listed
    rcases own.owner mutexName listed with holds | asks
    · exact .inl holds
    · rcases collects with nobody | same
      · rw [nobody] at asks
        cases asks
      · exact .inr (same ▸ asks)
  main := by
    rw [owned, queued]
    exact main

theorem unlock (own : process.Owning) {mutexName : MutexName} {caller : Caller σ}
    (idle : process.main.collecting? = none) (locks : caller.Locks mutexName) :
    (process.unlock mutexName caller).Owning := by
  unfold Process.unlock
  split_ifs with holds
  · exact own.moved rfl rfl (.inl idle) holds
  · refine own.moved rfl rfl (.inl idle) ?_
    cases caller with
    | program => trivial
    | wait call =>
      change process.owned call.mutex = false
      rw [locks]
      exact Bool.eq_false_of_not_eq_true holds

theorem mainStep (own : process.Owning) (coherent : process.main.Coherent)
    (step : MainStep serialization self process action process' sent) : process'.Owning := by
  have main := own.main
  cases step with
  | configured | assign => exact own.moved rfl rfl (.inr rfl) main
  | lock here => exact own.moved rfl rfl (.inl (by rw [here]; rfl)) trivial
  | unlock here => exact own.unlock (by rw [here]; rfl) trivial
  | wait here owned => exact own.moved rfl rfl (.inl (by rw [here]; rfl)) owned
  | notify called here same picked =>
    refine own.moved rfl rfl (.inl (by rw [here]; rfl)) ?_
    rcases picked with rfl | ⟨recipients, rfl, -⟩
    · exact main
    · trivial
  | leave here => exact own.moved rfl rfl (.inl (by rw [here]; rfl)) trivial
  | @queue mutexName id received caller here =>
    constructor
    · intro name holds
      simp only [Function.update_apply]
      split_ifs
      · rfl
      · exact own.queued name holds
    · intro name listed
      simp only [Function.update_apply] at listed
      split_ifs at listed with same
      · exact .inr (congrArg some same.symm)
      · refine .inl ((own.owner name listed).resolve_right ?_)
        rw [here]
        exact nofun
    · simp [MainThread.Owning]
  | @acquired mutexName id received caller here complete =>
    rw [here] at main coherent
    constructor
    · intro name holds
      simp only [Function.update_apply] at holds
      split_ifs at holds with same
      · exact same ▸ main
      · exact own.queued name holds
    · intro name listed
      simp only [Function.update_apply]
      split_ifs with same
      · exact .inl rfl
      · refine .inl ((own.owner name listed).resolve_right ?_)
        rw [here]
        exact fun asks => same (Option.some.inj asks).symm
    · cases caller with
      | program => trivial
      | wait call =>
        change Function.update process.owned mutexName true call.mutex = true
        rw [coherent.2, Function.update_self]
  | answerDeferred here =>
    rw [here] at main
    exact own.moved rfl rfl (.inr (by rw [here]; rfl)) main
  | @released mutexName unanswered caller here through =>
    rw [here] at coherent
    constructor
    · intro name holds
      simp only [Function.update_apply] at holds ⊢
      split_ifs at holds ⊢ with same
      exact own.queued name holds
    · intro name listed
      simp only [Function.update_apply] at listed ⊢
      split_ifs at listed ⊢ with same
      · cases listed
      · refine .inl ((own.owner name listed).resolve_right ?_)
        rw [here]
        exact nofun
    · cases caller with
      | program => trivial
      | wait call =>
        change Function.update process.owned mutexName false call.mutex = false
        rw [coherent.2, Function.update_self]
  | announce here | stop here | subscribeConfirmations here | announceEnd here =>
    rw [here] at main
    exact own.moved rfl rfl (.inl (by rw [here]; rfl)) main
  | retry here => exact own.unlock (by rw [here]; rfl) rfl
  | wake here | waitReturns here | sendNotify here | sendSync here =>
    exact own.moved rfl rfl (.inl (by rw [here]; rfl)) trivial
  | unlockMonitor here => exact own.unlock (by rw [here]; rfl) trivial

theorem dispatched (own : process.Owning)
    (does : Dispatched self packet monitors process process' sent) : process'.Owning := by
  have main := own.main
  cases does with
  | early type here queued | counted type here queued =>
    rw [here] at main
    exact own.moved rfl rfl (.inr (by rw [here]; rfl)) main
  | notified =>
    refine own.moved rfl rfl (.inr ?_) ?_
    · cases process.main <;> rfl
    · cases here : process.main <;> rw [here] at main <;> exact main
  | confirmed =>
    exact own.moved rfl rfl (.inr (collecting_confirm _ _)) (owning_confirm main _)
  | _ => exact own.moved rfl rfl (.inr rfl) main

end Process.Owning

theorem owning_run {contract : Permission (System n σ) (Event n σ)}
    {trace : Trace (System n σ) (Event n σ)}
    (run : Run communicator serialization setup contract trace s) (p : ProcessId n) :
    (s.process p).Owning := by
  refine process_run run ?_ ?_ ?_ p
  · exact fun p => ⟨nofun, nofun, trivial⟩
  · exact fun process clock receiving own => ⟨own.queued, own.owner, own.main⟩
  · intro trace s self action consumed process' sent run may own does
    cases does with
    | main does => exact own.mainStep (wellFormed_run run self).coherent does
    | dispatch received free dispatches does => exact own.dispatched does

end DistributedMonitor
