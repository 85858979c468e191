import DistributedMonitor.Linearization
import DistributedMonitor.Rest
import DistributedMonitor.Waiters
import DistributedMonitor.Library.Inevitability

/-! Two programs that wake each other. Whoever sleeps when the other one leaves its body is known
there and notified, so the two are never asleep together, and one of them always goes on. Only a
notification after the unlock may come too late, and stop a receiving thread. -/

namespace DistributedMonitor
open Library Registration

variable {n : ℕ} {σ ρ : Type} {serialization : Serialization σ} {setup : Setup 2 σ}
  {contract : Permission (System 2 σ) (Event 2 σ)} {trace : Trace (System 2 σ) (Event 2 σ)}
  {s s' : System 2 σ} {e : Event 2 σ} {p q : ProcessId 2} {condName : CondName}
  {mutexName : MutexName}

theorem source_other (run : Run .simple serialization setup contract trace s) (different : p ≠ q)
    {packet : Packet 2} (listed : packet ∈ ((s.process q).waits condName).packets) :
    packet.source = p := by
  have foreign : packet.source ≠ q := by
    rintro rfl
    exact ((barrier_run run condName).1 _).unlisted (List.mem_map_of_mem listed)
  exact (only_other (Ne.symm foreign) (Ne.symm different))

theorem announce_unlisted (run : Run .simple serialization setup contract trace s)
    (different : p ≠ q) {raw : RawPacket} (pending : raw ∈ s.pending p q)
    (announces : raw.carries .condWait condName = true) :
    ((s.process q).waits condName).packets = [] := by
  have unlisted : ¬(s.pair condName p q).mute.listed := by
    have signal : Signal.announce ∈ (s.pair condName p q).mute.signals :=
      List.mem_filterMap.2 ⟨raw, pending, announce_iff.2 announces⟩
    cases (barrier_run run condName).2 p q different with
    | announced _ _ _ unlisted | announcedEnding _ _ _ unlisted => exact unlisted
    | outside _ signals | known _ signals | ending _ signals | acknowledging _ signals
    | acknowledged _ signals =>
      rw [signals] at signal
      simp at signal
  refine List.eq_nil_iff_forall_not_mem.2 fun packet listed => unlisted ?_
  exact source_other run different listed ▸ List.mem_map_of_mem listed

theorem lists_read (run : Run .simple serialization setup contract trace s) (different : p ≠ q)
    {packet : Packet 2} (received : (s.process q).receiving = .received packet)
    (named : packet.message = condName) {table : StampedSet 2}
    (changes : packet.messageType = .condWaitEnd ∨
      packet.messageType = .condWait ∧ table = ((s.process q).waits condName).insert packet)
    (inside : (s.process p).main.stage condName = .inside) : p ∈ table.senders := by
  have pending : packet.raw ∈ s.pending packet.source q := received_pending received
  have signal : packet.raw.signal condName ≠ none := by
    rcases changes with type | ⟨type, -⟩ <;> simp [RawPacket.signal, Packet.raw, type, named]
  obtain rfl : packet.source = p := by
    refine only_other (Ne.symm fun own => ?_) (Ne.symm different)
    have nothing := List.filterMap_eq_nil_iff.1 ((barrier_run run condName).1 q).signals
    exact signal (nothing packet.raw (own ▸ pending))
  rcases changes with type | ⟨type, rfl⟩
  · have withdraws : Signal.withdraw ∈ (s.pair condName packet.source q).mute.signals :=
      List.mem_filterMap.2 ⟨packet.raw, pending, withdraw_iff.2 ⟨type, named⟩⟩
    cases (((barrier_run run condName).2 _ q different).withdrawing withdraws).symm.trans inside
  · have nobody := announce_unlisted run different pending (RawPacket.carries_iff.2 ⟨type, named⟩)
    have alone : (((s.process q).waits condName).insert packet).senders = [packet.source] := by
      simp only [StampedSet.senders, StampedSet.insert, nobody, StampedSet.place, List.map_cons,
        List.map_nil]
    rw [alone]
    exact List.mem_singleton_self _

theorem lists_stays (run : Run .simple serialization setup contract trace s) (different : p ≠ q)
    (taken : step .simple serialization s e = some s')
    (inside : (s.process p).main.stage condName = .inside)
    (listed : (s.process q).lists condName p = true) : (s'.process q).lists condName p = true := by
  cases systemStep (wellFormed_run run) taken with
  | receive | updateTimestamp => exact (read_update (·.lists condName p) (by rfl) q).trans listed
  | @acts self action consumed process' sent does =>
    by_cases own : q = self
    · subst own
      rw [System.update_own]
      rcases waits_step condName (wellFormed_run run q) does with
        ⟨same, -⟩ | ⟨packet, rfl, named, changes⟩
      · rwa [Process.lists, same]
      · cases does with
        | dispatch received =>
          exact decide_eq_true (lists_read run different received named changes inside)
    · rwa [s.update_other own]

theorem listed_inside (run : Run .simple serialization setup contract trace s) (different : p ≠ q)
    (inside : (s.process p).main.stage condName = .inside) :
    (∃ raw ∈ s.pending p q, raw.carries .condWait condName = true) ∨
      (s.process q).lists condName p = true := by
  revert inside
  apply run.history_invariant (I := fun _ s => (s.process p).main.stage condName = .inside →
    (∃ raw ∈ s.pending p q, raw.carries .condWait condName = true) ∨
      (s.process q).lists condName p = true)
  · rintro _ rfl inside
    cases inside
  · intro trace s e s' run before may taken inside
    cases systemStep (wellFormed_run run) taken with
    | receive listening head =>
      rw [pending_receive listening head]
      exact (before ((read_update (·.main.stage condName) (by rfl) p).symm.trans inside)).imp_right
        (read_update (·.lists condName p) (by rfl) q).trans
    | updateTimestamp updating => exact absurd updating (not_updating run _ _)
    | @acts self action consumed process' sent does =>
      have effect : WaitEffect self condName (s.process self) consumed process' sent :=
        waitEffect (wellFormed_run run self) does
      obtain ⟨rest, pending, pending'⟩ := pending_acts does p q
      by_cases mine : p = self
      · subst mine
        rw [System.update_own] at inside
        have table : (s.update p (process', sent)).process q = s.process q :=
          s.update_other (Ne.symm different) ..
        rw [table, pending']
        have kept : (s.process p).main.stage condName = .inside →
            (∃ raw ∈ rest ++ sentFrom p p q sent, raw.carries .condWait condName = true) ∨
              (s.process q).lists condName p = true := by
          intro already
          rcases before already with ⟨raw, member, carries⟩ | listed
          · rw [pending, dispatchedFrom, if_neg (Ne.symm different), List.nil_append] at member
            exact .inl ⟨raw, List.mem_append_left _ member, carries⟩
          · exact .inr listed
        cases effect with
        | announced =>
          refine .inl ⟨_, List.mem_append_right _ (mem_sentFrom.2
            ⟨rfl, mem_otherProcesses.2 (Ne.symm different), rfl⟩), RawPacket.carries_iff.2 ⟨rfl, rfl⟩⟩
        | withdrew _ after => cases after.symm.trans inside
        | finished _ after => cases after.symm.trans inside
        | quiet _ _ main | heard _ main | forgot _ main | signalled _ main =>
          exact kept (main.stage.symm.trans inside)
        | picked stage | notified stage | confirmed _ stage => exact kept (stage.symm.trans inside)
      · have own : self = q := only_other mine different
        subst own
        have client : (s.update self (process', sent)).process p = s.process p :=
          s.update_other mine ..
        rw [client] at inside
        rw [System.update_own, pending', sentFrom, if_neg mine, List.append_nil]
        rcases waits_step condName (wellFormed_run run self) does with
          ⟨same, unread⟩ | ⟨packet, rfl, named, changes⟩
        · rw [Process.lists, same]
          rcases before inside with ⟨raw, member, carries⟩ | listed
          · rw [pending, dispatchedFrom, if_pos rfl] at member
            refine .inl ⟨raw, (List.mem_append.1 member).resolve_left fun read => ?_, carries⟩
            cases consumed with
            | none => cases read
            | some packet =>
              obtain ⟨-, rfl⟩ := mem_inboxFrom.1 read
              rw [unread packet rfl] at carries
              cases carries
          · exact .inr listed
        · cases does with
          | dispatch received =>
            exact .inr (decide_eq_true (lists_read run different received named changes inside))

/-- Whoever has the mutex of a condition variable lists the other one while that waits: the
announcement came ahead of the agreement. -/
theorem holder_lists (run : Run .simple serialization setup contract trace s)
    (once : ∀ trace s e, contract trace s e → acquiresOnce s e = true)
    (under : ∀ trace s (e : Event 2 σ), contract trace s e →
      waitsUnder condName mutexName s e = true)
    (different : p ≠ q) (holds : (s.process q).holds mutexName = true)
    (inside : (s.process p).main.stage condName = .inside) :
    (s.process q).lists condName p = true := by
  let kind : Kind := fun messageType message => messageType = .condWait ∧ message = condName
  have guard : Guarded mutexName kind s := by
    apply guarded_run run
    intro trace s self action consumed process' sent run may does recipient raw member announces
    have listed : raw ∈ (addressed sent recipient).filter (·.carries .condWait condName) :=
      List.mem_filter.2 ⟨member, RawPacket.carries_iff.2 announces⟩
    rw [filter_announced does] at listed
    split_ifs at listed with same
    · cases listed
    · obtain ⟨packet, announced, -⟩ := List.mem_map.1 listed
      obtain ⟨-, ⟨call, main, named⟩, -⟩ := mem_announcedBy announced
      exact ⟨same, announcing_holds under run main named⟩
  obtain ⟨time, holding⟩ := holding_of_holds once run holds
  rcases listed_inside run different inside with ⟨raw, pending, carries⟩ | listed
  · exact absurd (RawPacket.carries_iff.1 carries) (guard.holding q time holding p raw pending)
  · exact listed

theorem notifyOne_other (run : Run .simple serialization setup contract trace s)
    (different : p ≠ q) (listed : (s.process q).lists condName p = true)
    (taken : step .simple serialization s (q, .notifyOne condName) = some s') :
    (s'.process q).main = .notifying condName {p} := by
  obtain ⟨packet, member, -⟩ := List.mem_map.1 (of_decide_eq_true listed)
  cases packets : ((s.process q).waits condName).packets with
  | nil =>
    rw [packets] at member
    cases member
  | cons first rest =>
    rw [notifyOne_first packets taken, source_other run different]
    rw [packets]
    exact List.mem_cons_self ..

variable {monitor : MonitorName} {initial : σ} {program : Program 2 σ ρ} {c c' : Client 2 σ ρ}
  {moves : Trace (Client 2 σ ρ) (Move 2 σ)} {m : Move 2 σ} {a : Sequential 2 σ}

/-- Each program notifies the condition variable that the other waits on, and whenever no entry is
under way one of the two can go through its next one. -/
structure Program.Exchanges (program : Program 2 σ ρ) (initial : σ) : Prop where
  wakes : ∀ p q k k', p ≠ q → (program q k).notifies = (program p k').waitsOn
  runs : ∀ history a p, Sequential.Run program initial history a →
    (program p (a.round p)).ready a.state = true → ((program p (a.round p)).run a.state).isSome
  goes : ∀ history a, Sequential.Run program initial history a →
    ∃ p, (program p (a.round p)).ready a.state = true

def Program.usage (monitor : MonitorName) (program : Program 2 σ ρ) : Usage :=
  ⟨{monitor.1}, Finset.univ.image fun p => (program p 0).waitsOn, {monitor}, fun _ => monitor.1⟩

theorem Program.Exchanges.waitsOn (exchanges : program.Exchanges initial) (p : ProcessId 2) (k : ℕ) :
    (program p k).waitsOn = (program p 0).waitsOn := by
  obtain ⟨q, other⟩ := exists_ne p
  exact (exchanges.wakes p q 0 k other.symm).symm.trans (exchanges.wakes p q 0 0 other.symm)

def planned (monitor : MonitorName) (program : Program 2 σ ρ) :
    Permission (System 2 σ) (Event 2 σ) :=
  Obeying fun s e => keepsPlan (program.usage monitor) s e && acquiresOnce s e

theorem planned_once (trace : Trace (System 2 σ) (Event 2 σ)) (s : System 2 σ) (e : Event 2 σ)
    (may : planned monitor program trace s e) : acquiresOnce s e = true :=
  (Bool.and_eq_true_iff.1 may).2

theorem planned_under (trace : Trace (System 2 σ) (Event 2 σ)) (s : System 2 σ) (e : Event 2 σ)
    (may : planned monitor program trace s e) : waitsUnder condName monitor.1 s e = true := by
  have rule := (Bool.and_eq_true_iff.1 may).1
  obtain ⟨self, action⟩ := e
  cases action with
  | wait => exact decide_eq_true (.inr (of_decide_eq_true rule).2.2)
  | _ => rfl

theorem may_keep (exchanges : program.Exchanges initial)
    (does : c.Does serialization monitor program m e c') :
    keepsPlan (program.usage monitor) c.system e = true := by
  cases does with
  | @program p action position system next taken =>
    unfold Client.next at next
    cases here : c.position p with
    | lock | leave =>
      rw [here] at next
      cases next
      exact decide_eq_true (Finset.mem_singleton_self _)
    | wait =>
      rw [here] at next
      cases next
      refine decide_eq_true ⟨?_, Finset.mem_singleton_self _, rfl⟩
      rw [exchanges.waitsOn]
      exact Finset.mem_image_of_mem _ (Finset.mem_univ p)
    | body done locals =>
      rw [here] at next
      obtain ⟨statement, -, next⟩ := Option.bind_eq_some_iff.1 next
      obtain ⟨after, -, next⟩ := Option.bind_eq_some_iff.1 next
      cases next
      rfl
    | notify =>
      rw [here] at next
      cases next
      rfl
  | thread internal taken =>
    rename_i action _
    cases action <;> first | rfl | cases internal

theorem notifies_at {action : Action 2 σ} {position : Position ρ}
    (next : c.next monitor program p = some (action, position))
    (notifies : action = .notifyOne condName ∨ action = .notifyAll condName) :
    c.position p = .notify := by
  unfold Client.next at next
  cases here : c.position p with
  | notify => rfl
  | body done locals =>
    rw [here] at next
    obtain ⟨statement, -, next⟩ := Option.bind_eq_some_iff.1 next
    obtain ⟨after, -, next⟩ := Option.bind_eq_some_iff.1 next
    cases next
    rcases notifies with other | other <;> cases other
  | lock | wait | leave =>
    rw [here] at next
    cases next
    rcases notifies with other | other <;> cases other

theorem may_inside (exchanges : program.Exchanges initial)
    (inside : ∀ p k, (program p k).unlockFirst = false)
    (sound : c.Sound setup serialization monitor initial program moves)
    (does : c.Does serialization monitor program m e c') :
    disciplined (program.usage monitor) c.system e = true := by
  obtain ⟨self, action⟩ := e
  have keeps := may_keep exchanges does
  have owned : ∀ condName, action = .notifyOne condName ∨ action = .notifyAll condName →
      (c.system.process self).owned monitor.1 = true := by
    intro condName notifies
    cases does with
    | program next taken =>
      have owned := ((sound.here self).of_running (call_main (next_isCall next) taken)).1
      rwa [notifies_at next notifies, inside] at owned
    | thread internal => rcases notifies with rfl | rfl <;> cases internal
  cases action with
  | notifyOne condName => exact owned condName (.inl rfl)
  | notifyAll condName => exact owned condName (.inr rfl)
  | _ => exact keeps

theorem obeying_run {rule : System 2 σ → Event 2 σ → Bool}
    (rules : ∀ moves (c c' : Client 2 σ ρ) m e,
      c.Sound setup serialization monitor initial program moves →
        c.Does serialization monitor program m e c' → rule c.system e = true)
    (run : Client.Run serialization setup monitor program moves c) :
    Run .simple serialization setup (Obeying rule) (Client.systemTrace monitor program moves)
      c.system := by
  refine run.refines Client.system _ (fun _ begins => by rw [begins]; rfl) ?_
  intro moves c m c' run _ moved
  obtain ⟨e, event, does⟩ := client_does moved
  exact .inr ⟨e, by rw [event]; rfl, rules moves c c' m e (sound_run run) does, does.taken⟩

theorem planned_run (exchanges : program.Exchanges initial)
    (run : Client.Run serialization setup monitor program moves c) :
    Run .simple serialization setup (planned monitor program)
      (Client.systemTrace monitor program moves) c.system := by
  have rules : ∀ moves (c c' : Client 2 σ ρ) m e,
      c.Sound setup serialization monitor initial program moves →
        c.Does serialization monitor program m e c' →
          (keepsPlan (program.usage monitor) c.system e && acquiresOnce c.system e) = true := by
    intro moves c c' m e sound does
    exact Bool.and_eq_true_iff.2 ⟨may_keep exchanges does,
      enters_once waitsFirst_enters _ _ _ (sound.may does)⟩
  exact obeying_run rules run

/-- In the body behind its first statement, or between the body and the notification. -/
def Position.owes (unlockFirst : Bool) : Position ρ → Bool
  | .body done _ => 0 < done
  | .notify => true
  | .leave => unlockFirst
  | _ => false

def Client.owes (program : Program n σ ρ) (c : Client n σ ρ) (p : ProcessId n) : Bool :=
  (c.position p).owes (program p (c.round p)).unlockFirst

/-- A process that sleeps and has not been notified waits for what is not so yet, or the other
one is going to notify it, and lists it until then. -/
def Client.Awaited (serialization : Serialization σ) (monitor : MonitorName) (initial : σ)
    (program : Program 2 σ ρ) (trace : Trace (System 2 σ) (Event 2 σ)) (c : Client 2 σ ρ) : Prop :=
  ∀ p q, p ≠ q → (c.system.process p).main.asleep (program p 0).waitsOn = true →
    notifiedSince serialization (program p 0).waitsOn q p trace = 0 →
    (program p (c.round p)).ready (lastAssigned monitor initial trace) = false ∨
      (c.owes program q = true ∧
        (c.system.process q).lists (program p 0).waitsOn p = true) ∨
      p ∈ (c.system.process q).main.recipients (program p 0).waitsOn

theorem stage_asleep {main : MainThread 2 σ} (asleep : main.asleep condName = true) :
    main.stage condName = .inside := by
  cases main with
  | releasing name unanswered caller =>
    cases caller with
    | program => cases asleep
    | wait call =>
      have named : call.condName = condName := of_decide_eq_true asleep
      simp [MainThread.stage, MainThread.waitCall, Caller.waitCall, named]
  | blocked call signalled =>
    simpa [MainThread.stage, MainThread.waitCall] using (asleep_blocked.1 asleep).2
  | _ => cases asleep

theorem asleep_before (wf : s.WellFormed setup) (taken : step .simple serialization s e = some s')
    (other : evaluates p e = false) (asleep : (s'.process p).main.asleep condName = true) :
    (s.process p).main.asleep condName = true := by
  cases systemStep wf taken with
  | receive | updateTimestamp =>
    exact (read_update (·.main.asleep condName) (by rfl) p).symm.trans asleep
  | @acts self action consumed process' sent does =>
    by_cases mine : p = self
    · subst mine
      rw [System.update_own] at asleep
      rcases asleep_step does asleep with rfl | ⟨before, -⟩
      · simp [evaluates] at other
      · exact before
    · rwa [s.update_other mine] at asleep

theorem fell_asleep (sound : c.Sound setup serialization monitor initial program moves)
    (current : Current monitor initial (Client.systemTrace monitor program moves) c.system)
    (taken : step .simple serialization c.system (p, .evaluate) = some s')
    (asleep : (s'.process p).main.asleep condName = true) :
    (program p (c.round p)).ready
      (lastAssigned monitor initial (Client.systemTrace monitor program moves)) = false := by
  obtain ⟨outcome, acts, -⟩ := step_act (by simp) taken
  simp only [Process.act, Process.evaluate] at acts
  split at acts
  next call main =>
    have here := sound.here p
    unfold Entry.At at here
    rw [main] at here
    obtain ⟨mutex, predicate, -⟩ := here
    have owned := (owning_run sound.run p).main
    rw [main] at owned
    have holds : (c.system.process p).holds monitor.1 = true :=
      holds_iff.2 ⟨mutex ▸ owned, by rw [main]; exact fun same => by cases same⟩
    rw [← current.held p holds, ← predicate]
    by_contra ready
    have keeps : blocksIn monitor c.system (p, .evaluate) = false := by
      simp only [blocksIn, main, mutex, Bool.eq_true_of_not_eq_false ready]
      simp
    rw [stops_unblocked keeps main mutex taken] at asleep
    cases asleep
  next => cases acts

theorem owes_moved {position : Position ρ} (moved : c'.position = Function.update c.position q position)
    (round : c'.round = if position.isLock then Function.update c.round q (c.round q + 1) else c.round)
    (owes : position.owes (program q (c.round q)).unlockFirst = true) : c'.owes program q = true := by
  unfold Client.owes
  rw [moved, Function.update_self, round]
  cases position with
  | lock => cases owes
  | wait | body | notify | leave => exact owes

theorem owes_body {action : Action 2 σ} {position : Position ρ}
    (next : c.next monitor program q = some (action, position)) {done : ℕ} {locals : ρ}
    (here : c.position q = .body done locals) :
    position.owes (program q (c.round q)).unlockFirst = true := by
  rw [Client.next, here] at next
  obtain ⟨statement, -, next⟩ := Option.bind_eq_some_iff.1 next
  obtain ⟨after, -, next⟩ := Option.bind_eq_some_iff.1 next
  simp only [Option.some.injEq, Prod.mk.injEq] at next
  rw [← next.2, Entry.afterBody]
  by_cases first : (program q (c.round q)).unlockFirst = true
  · rw [if_pos first, first]
    split_ifs <;> rfl
  · rw [if_neg first]
    split_ifs <;> rfl

theorem body_of_assigned {action : Action 2 σ} {position : Position ρ}
    (next : c.next monitor program q = some (action, position))
    (assigns : assignedTo monitor c.system (q, action) ≠ none) :
    ∃ done locals, c.position q = .body done locals := by
  cases here : c.position q with
  | body done locals => exact ⟨done, locals, rfl⟩
  | _ =>
    rw [Client.next, here] at next
    cases next
    exact absurd rfl assigns

theorem owes_next {action : Action 2 σ} {position : Position ρ}
    (next : c.next monitor program q = some (action, position)) (owes : c.owes program q = true) :
    position.owes (program q (c.round q)).unlockFirst = true ∨
      action = .notifyOne (program q (c.round q)).notifies := by
  unfold Client.owes at owes
  cases here : c.position q with
  | body done locals => exact .inl (owes_body next here)
  | notify =>
    rw [Client.next, here] at next
    cases next
    exact .inr rfl
  | leave =>
    rw [here] at owes
    change (program q (c.round q)).unlockFirst = true at owes
    rw [Client.next, here] at next
    simp only [Entry.next, owes, if_true, Option.some.injEq, Prod.mk.injEq] at next
    rw [← next.2]
    exact .inl rfl
  | lock | wait =>
    rw [here] at owes
    cases owes

theorem evaluates_call {action : Action 2 σ} (called : action.isCall = true) :
    evaluates p (q, action) = false := by
  cases action <;> first | rfl | cases called

theorem awaited_step (exchanges : program.Exchanges initial)
    (sound : c.Sound setup serialization monitor initial program moves)
    (current : Current monitor initial (Client.systemTrace monitor program moves) c.system)
    (plan : Run .simple serialization setup (planned monitor program)
      (Client.systemTrace monitor program moves) c.system)
    (awaited : c.Awaited serialization monitor initial program
      (Client.systemTrace monitor program moves))
    (does : c.Does serialization monitor program m e c') :
    c'.Awaited serialization monitor initial program
      ((c.system, e) :: Client.systemTrace monitor program moves) := by
  intro p q different asleep unnotified
  have wf := wellFormed_run sound.run
  have taken := does.taken
  have still : m ≠ .program p := by
    rintro rfl
    obtain ⟨action, position, rfl, next, -⟩ := does.of_program
    have called := next_isCall next
    have before := asleep_before wf taken (evaluates_call called) asleep
    rw [call_main called taken] at before
    cases before
  obtain ⟨stays, round⟩ := does.elsewhere still
  rw [round]
  by_cases looks : evaluates p e = true
  · left
    obtain ⟨self, action⟩ := e
    cases action with
    | evaluate =>
      obtain rfl : self = p := of_decide_eq_true looks
      rw [lastAssigned_none rfl]
      exact fell_asleep sound current taken asleep
    | _ => cases looks
  · have other := Bool.eq_false_of_not_eq_true looks
    have before := asleep_before wf taken other asleep
    rw [notifiedSince, other] at unnotified
    obtain ⟨unnotified, silent⟩ := Nat.add_eq_zero_iff.1 unnotified
    rcases awaited p q different before unnotified with unready | ⟨owes, listed⟩ | picked
    · by_cases assigns : assignedTo monitor c.system e = none
      · rw [lastAssigned_none assigns]
        exact .inl unready
      · cases m with
        | program r =>
          obtain rfl : r = q :=
            (only_other (fun same : p = r => still (same ▸ rfl)) different)
          obtain ⟨action, position, rfl, next, moved, round⟩ := does.of_program
          obtain ⟨done, locals, here⟩ := body_of_assigned next assigns
          have owned := ((sound.here r).of_running (call_main (next_isCall next) taken)).1
          rw [here] at owned
          have listed := holder_lists plan planned_once planned_under different
            (holds_running (call_main (next_isCall next) taken) owned) (stage_asleep before)
          exact .inr (.inl ⟨owes_moved moved round (owes_body next here),
            lists_stays plan different taken (stage_asleep before) listed⟩)
        | thread r action =>
          obtain ⟨rfl, internal, -⟩ := does.of_thread
          refine absurd (assignedTo_none fun state same => ?_) assigns
          rw [same] at internal
          cases internal
    · by_cases own : m = .program q
      · subst own
        obtain ⟨action, position, rfl, next, moved, round⟩ := does.of_program
        rcases owes_next next owes with owes | rfl
        · exact .inr (.inl ⟨owes_moved moved round owes,
            lists_stays plan different taken (stage_asleep before) listed⟩)
        · rw [exchanges.wakes p q (c.round q) 0 different] at taken
          rw [notifyOne_other plan different listed taken, MainThread.recipients, if_pos rfl]
          exact .inr (.inr (Finset.mem_singleton_self p))
      · unfold Client.owes
        rw [(does.elsewhere own).1, (does.elsewhere own).2]
        exact .inr (.inl ⟨owes, lists_stays plan different taken (stage_asleep before) listed⟩)
    · obtain ⟨recipients, main⟩ := notifying_of_recipient picked
      rw [main, MainThread.recipients, if_pos rfl] at picked
      rcases notifying_reaches wf main taken with main' | ⟨rfl, -⟩
      · rw [main', MainThread.recipients, if_pos rfl]
        exact .inr (.inr picked)
      · rw [notifying_sends main, if_pos picked] at silent
        simp [noticesIn, RawPacket.carries] at silent

theorem program_taken (sound : c.Sound setup serialization monitor initial program moves)
    (main : (c.system.process p).main = .running) {action : Action 2 σ} {position : Position ρ}
    (next : c.next monitor program p = some (action, position)) :
    (Client.step serialization monitor program c (.program p)).isSome := by
  have possible : (step .simple serialization c.system (p, action)).isSome := by
    have owned := ((sound.here p).of_running main).1
    unfold Client.next at next
    cases here : c.position p with
    | body done locals =>
      rw [here] at next
      obtain ⟨statement, -, next⟩ := Option.bind_eq_some_iff.1 next
      obtain ⟨after, -, next⟩ := Option.bind_eq_some_iff.1 next
      cases next
      simp [step, Process.act, Process.call, main]
    | wait =>
      rw [here] at next owned
      cases next
      change (c.system.process p).owned monitor.1 = true at owned
      simp [step, Process.act, Process.call, main, Process.wait, Process.isOwned, owned]
    | lock | notify | leave =>
      rw [here] at next
      cases next
      simp [step, Process.act, Process.call, main]
  obtain ⟨system, taken⟩ := Option.isSome_iff_exists.1 possible
  simp [Client.step, next, taken]

/-- The moves that are not wake-ups which nobody has signalled. -/
def Client.carriesOn (c : Client n σ ρ) : Move n σ → Bool
  | .program _ => true
  | .thread p action => DistributedMonitor.carriesOn c.system (p, action)

/-- No move is left but such wake-ups. -/
def Client.Halted (serialization : Serialization σ) (monitor : MonitorName) (program : Program n σ ρ)
    (c : Client n σ ρ) : Prop :=
  ∀ m, c.carriesOn m = true → Client.step serialization monitor program c m = none

theorem moves_of_not_halted {program : Program n σ ρ} {c : Client n σ ρ}
    (goes : ¬c.Halted serialization monitor program) :
    ∃ m c', c.carriesOn m = true ∧ Client.step serialization monitor program c m = some c' := by
  by_contra nothing
  refine goes fun m on => ?_
  cases moved : Client.step serialization monitor program c m with
  | none => rfl
  | some c' => exact absurd ⟨m, c', on, moved⟩ nothing

/-- A receiving thread throws: it has a notification for a wait that is over. -/
def Client.Throws (serialization : Serialization σ) (c : Client n σ ρ) : Prop :=
  ∃ p condName, (c.system.process p).unhandled serialization p condName = true

theorem dispatch_handled {usage : Usage} (ready : usage.Ready setup)
    (run : Run .simple serialization setup (Obeying (keepsPlan usage)) trace c.system)
    (handled : ¬c.Throws serialization) {packet : Packet 2}
    (received : (c.system.process p).receiving = .received packet) :
    ∃ outcome, (c.system.process p).dispatch serialization p packet = .ok outcome := by
  by_cases type : packet.messageType = .condNotify
  · cases dispatches : (c.system.process p).dispatch serialization p packet with
    | ok outcome => exact ⟨outcome, rfl⟩
    | error problem =>
      refine absurd ⟨p, packet.message, ?_⟩ handled
      simp [Process.unhandled, received, type, dispatches, Except.toOption]
  · exact dispatch_kept ready run received type

theorem never_throws_inside {usage : Usage} (ready : usage.Ready setup)
    (run : Run .simple serialization setup (Obeying (disciplined usage)) trace c.system) :
    ¬c.Throws serialization := by
  rintro ⟨p, condName, fails⟩
  unfold Process.unhandled at fails
  split at fails
  next packet received =>
    obtain ⟨outcome, dispatches⟩ := dispatch_planned ready run received
    obtain ⟨-, -, fails⟩ := of_decide_eq_true fails
    rw [dispatches] at fails
    cases fails
  next => cases fails

theorem usage_ready (shares : ∀ p, setup.monitors p = [monitor]) (short : monitor.1.length < 128)
    (registered : ∀ p q, (program p 0).waitsOn ∈ setup.conditions q) :
    (program.usage monitor).Ready setup where
  mutexes p := by simp [Program.usage, Setup.process, shares]
  conditions q := Finset.image_subset_iff.2 fun p _ => registered p q
  monitors p other used := by
    rw [shares, Finset.mem_singleton.1 used]
    exact List.mem_singleton_self _
  short other used := by
    rw [Finset.mem_singleton.1 used]
    exact short

theorem collects_monitor (sound : c.Sound setup serialization monitor initial program moves)
    (collects : (c.system.process p).main.collecting? = some mutexName) : mutexName = monitor.1 := by
  have here := sound.here p
  unfold Entry.At at here
  cases main : (c.system.process p).main with
  | collecting name id received caller =>
    rw [main] at collects here
    cases collects
    cases caller with
    | program => exact here.1
    | wait call =>
      have locks := (wellFormed_run sound.run p).coherent
      rw [main] at locks
      have mutex : call.mutex = mutexName := locks.2
      exact mutex.symm.trans here.1
  | _ =>
    rw [main] at collects
    cases collects

theorem internal_of_carriesOn {action : Action n σ} {s : System n σ} {p : ProcessId n}
    (on : DistributedMonitor.carriesOn s (p, action) = true) : action.isCall = false := by
  cases action <;> first | rfl | cases on

section
variable (shares : ∀ p, setup.monitors p = [monitor])
  (alike : ∀ p, setup.state p monitor.1 = initial)
  (restores : ∀ old state,
    serialization.restoreState monitor old (serialization.saveState monitor state) = state)
  (short : monitor.1.length ≠ 255) (exchanges : program.Exchanges initial)
include shares alike restores short exchanges

theorem awaited_run (run : Client.Run serialization setup monitor program moves c) :
    c.Awaited serialization monitor initial program (Client.systemTrace monitor program moves) := by
  apply run.history_invariant (I := fun moves c => c.Awaited serialization monitor initial program
    (Client.systemTrace monitor program moves))
  · rintro _ rfl p q different asleep
    cases asleep
  · intro moves c m c' run awaited _ moved
    obtain ⟨e, event, does⟩ := client_does moved
    have sound : c.Sound setup serialization monitor initial program moves := sound_run run
    rw [systemTrace_cons event]
    exact awaited_step exchanges sound
      (client_current shares alike restores (orders_two short) sound) (planned_run exchanges run)
      awaited does

/-- Two processes that sleep would both have to be owed a notification. -/
theorem awake (run : Client.Run serialization setup monitor program moves c)
    {calls : ProcessId 2 → WaitCall σ}
    (asleep : ∀ p, (c.system.process p).main = .blocked (calls p) false)
    (unnotified : ∀ p q, notifiedSince serialization (calls p).condName q p
      (Client.systemTrace monitor program moves) = 0) : False := by
  have sound : c.Sound setup serialization monitor initial program moves := sound_run run
  obtain ⟨history, a, sequential, -, tracks⟩ :=
    linearized shares alike restores (orders_two short) run
  have waits : ∀ p, (calls p).condName = (program p 0).waitsOn ∧
      c.position p = .body 0 (program p (c.round p)).arguments := by
    intro p
    have here := sound.here p
    unfold Entry.At at here
    rw [asleep p] at here
    exact ⟨here.2.2.1.trans (exchanges.waitsOn p _), here.2.2.2⟩
  have value := tracks.unstarted fun p done locals started => by
    rw [(waits p).2] at started
    cases started
    rfl
  obtain ⟨p, ready⟩ := exchanges.goes history a sequential
  obtain ⟨q, other⟩ := exists_ne p
  have round : a.round p = c.round p := by
    rw [tracks.round, Client.finished, (waits p).2]
    rfl
  have named := (waits p).1
  have sleeps : (c.system.process p).main.asleep (program p 0).waitsOn = true := by
    rw [asleep p, ← named]
    exact decide_eq_true rfl
  rcases awaited_run shares alike restores short exchanges run p q other.symm sleeps
    (named ▸ unnotified p q) with unready | ⟨owes, -⟩ | picked
  · rw [value, ← round, ready] at unready
    cases unready
  · rw [Client.owes, (waits q).2] at owes
    cases owes
  · rw [asleep q] at picked
    cases picked

theorem goes_on (narrow : monitor.1.length < 128)
    (registered : ∀ p q, (program p 0).waitsOn ∈ setup.conditions q)
    (run : Client.Run serialization setup monitor program moves c)
    (handled : ¬c.Throws serialization) : ¬c.Halted serialization monitor program := by
  intro none
  have sound : c.Sound setup serialization monitor initial program moves := sound_run run
  have plan := planned_run exchanges run
  have stuck : c.system.Stuck .simple serialization := by
    rintro ⟨p, action⟩ on
    have halts := none (.thread p action) on
    rw [Client.step, if_neg (by rw [internal_of_carriesOn on]; exact Bool.false_ne_true)] at halts
    exact Option.map_eq_none_iff.1 halts
  have quiet : c.system.Quiescent := stuck.quiescent fun p =>
    stuck.listening fun packet received => dispatch_handled (usage_ready shares narrow registered)
      (plan.weaken fun _ _ _ may => (Bool.and_eq_true_iff.1 may).1) handled received
  have busy : ∀ p, (c.system.process p).main ≠ .running := by
    intro p main
    obtain ⟨history, a, sequential, -, tracks⟩ :=
      linearized shares alike restores (orders_two short) run
    have current := client_current shares alike restores (orders_two short) sound
    have next : (c.next monitor program p).isSome := by
      cases here : c.position p with
      | body done locals =>
        exact tracks.goes sound current.held main here (exchanges.runs history a p sequential)
      | _ =>
        rw [Client.next, here]
        rfl
    obtain ⟨call, next⟩ := Option.isSome_iff_exists.1 next
    have moves := program_taken sound main next
    rw [none (.program p) rfl] at moves
    cases moves
  have sleeps : ∀ p, ∃ call, (c.system.process p).main = .blocked call false ∧
      ∀ q, notifiedSince serialization call.condName q p
        (Client.systemTrace monitor program moves) = 0 := by
    intro p
    rcases stuck.rests quiet planned_once plan p with main | ⟨main, unnotified⟩ |
      ⟨other, collects, owned⟩
    · exact absurd main (busy p)
    · exact ⟨_, main, unnotified⟩
    · rename_i name q
      obtain rfl := collects_monitor sound collects
      exfalso
      rcases stuck.rests quiet planned_once plan q with main | ⟨main, unnotified⟩ |
        ⟨other', collects', -⟩
      · exact busy q main
      · have unowned := (owning_run sound.run q).main
        have here := sound.here q
        unfold Entry.At at here
        rw [main] at unowned here
        change (c.system.process q).owned _ = false at unowned
        rw [here.1, owned] at unowned
        cases unowned
      · obtain rfl := collects_monitor sound collects'
        have unowned := acquiring_unowned planned_once plan q (acquiring_of_collecting collects')
        rw [unowned] at owned
        cases owned
  choose calls asleep unnotified using sleeps
  exact awake shares alike restores short exchanges run asleep unnotified

end

def Client.ahead (program : Program n σ ρ) (c : Client n σ ρ) (p : ProcessId n) : ℕ :=
  match c.position p with
  | .lock => (program p (c.round p)).body.length + 2
  | .wait => (program p (c.round p)).body.length + 1
  | .body done _ => (program p (c.round p)).body.length - done
  | .notify =>
      (program p (c.round p + 1)).body.length + if (program p (c.round p)).unlockFirst then 3 else 4
  | .leave =>
      (program p (c.round p + 1)).body.length + if (program p (c.round p)).unlockFirst then 4 else 3

section
variable {setup : Setup n σ} {program : Program n σ ρ} {c c' : Client n σ ρ} {p q : ProcessId n}
  {e : Event n σ} {m : Move n σ} {names : Finset MutexName}

theorem program_ahead (does : c.Does serialization monitor program (.program p) e c') :
    c'.finished p = c.finished p + 1 ∨
      c'.finished p = c.finished p ∧ c'.ahead program p < c.ahead program p := by
  obtain ⟨action, position, rfl, next, moved, round⟩ := does.of_program
  have here' : c'.position p = position := by rw [moved, Function.update_self]
  have round' : c'.round p = if position.isLock then c.round p + 1 else c.round p := by
    rw [round]
    split_ifs
    · exact Function.update_self ..
    · rfl
  simp only [Client.finished, Client.ahead, here', round']
  unfold Client.next at next
  cases here : c.position p with
  | lock | wait =>
    rw [here] at next
    cases next
    right
    simp [Position.past, Position.isLock]
  | body done locals =>
    rw [here] at next
    obtain ⟨statement, comes, next⟩ := Option.bind_eq_some_iff.1 next
    obtain ⟨after, -, next⟩ := Option.bind_eq_some_iff.1 next
    simp only [Option.some.injEq, Prod.mk.injEq] at next
    have inside := (List.getElem?_eq_some_iff.1 comes).1
    by_cases more : done + 1 < (program p (c.round p)).body.length
    · rw [if_pos more] at next
      rw [← next.2]
      right
      simp only [Position.past, Position.isLock, Bool.false_eq_true, if_false, true_and]
      omega
    · rw [if_neg more] at next
      rw [← next.2]
      left
      unfold Entry.afterBody
      by_cases first : (program p (c.round p)).unlockFirst = true <;>
        simp [first, Position.past, Position.isLock]
  | notify | leave =>
    rw [here] at next
    simp only [Entry.next, Option.some.injEq, Prod.mk.injEq] at next
    rw [← next.2]
    right
    by_cases first : (program p (c.round p)).unlockFirst = true <;>
      simp [first, Position.past, Position.isLock]

theorem ahead_elsewhere (does : c.Does serialization monitor program m e c')
    (still : m ≠ .program q) :
    c'.finished q = c.finished q ∧ c'.ahead program q = c.ahead program q := by
  obtain ⟨position, round⟩ := does.elsewhere still
  simp only [Client.finished, Client.ahead, position, round, and_self]

theorem does_quiet (does : c.Does serialization monitor program m e c') :
    e.2.configures = false := by
  cases does with
  | @program p action position system next taken =>
    unfold Client.next at next
    cases here : c.position p with
    | body done locals =>
      rw [here] at next
      obtain ⟨statement, -, next⟩ := Option.bind_eq_some_iff.1 next
      obtain ⟨after, -, next⟩ := Option.bind_eq_some_iff.1 next
      cases next
      rfl
    | _ =>
      rw [here] at next
      cases next
      rfl
  | thread internal taken =>
    rename_i action _
    cases action <;> first | rfl | cases internal

def Client.rank (program : Program n σ ρ) (names : Finset MutexName) (k : ℕ) (c : Client n σ ρ) :
    ℕ ×ₗ ℕ ×ₗ ℕ :=
  toLex (k - ∑ p, c.finished p, toLex (∑ p, c.ahead program p, c.system.work names))

/-- Every move but an unsignalled wake-up takes the programs closer to the end of their next body. -/
theorem rank_step {k : ℕ} (wf : c.system.WellFormed setup)
    (covered : ∀ p, (c.system.process p).Covered names) (short : ∑ p, c.finished p < k)
    (on : c.carriesOn m = true) (does : c.Does serialization monitor program m e c') :
    c'.rank program names k < c.rank program names k := by
  unfold Client.rank
  cases m with
  | thread p action =>
    obtain ⟨rfl, internal, -⟩ := does.of_thread
    have still : ∀ q, Move.thread p action ≠ .program q := fun q => by simp
    simp only [(ahead_elsewhere does (still _)).1, (ahead_elsewhere does (still _)).2]
    have less := (work_step wf covered on does.taken).2
    simp [Prod.Lex.toLex_lt_toLex, less]
  | program p =>
    have split : ∀ f : ProcessId n → ℕ, ∑ q, f q = f p + ∑ q ∈ Finset.univ.erase p, f q :=
      fun f => (Finset.add_sum_erase _ f (Finset.mem_univ p)).symm
    have others : ∀ q ∈ Finset.univ.erase p,
        c'.finished q = c.finished q ∧ c'.ahead program q = c.ahead program q := by
      intro q other
      exact ahead_elsewhere does fun same => Finset.ne_of_mem_erase other (Move.program.inj same).symm
    have finished : ∑ q ∈ Finset.univ.erase p, c'.finished q =
        ∑ q ∈ Finset.univ.erase p, c.finished q :=
      Finset.sum_congr rfl fun q other => (others q other).1
    have ahead : ∑ q ∈ Finset.univ.erase p, c'.ahead program q =
        ∑ q ∈ Finset.univ.erase p, c.ahead program q :=
      Finset.sum_congr rfl fun q other => (others q other).2
    rw [split c.finished] at short
    rw [split c'.finished, split c.finished, split (c'.ahead program), split (c.ahead program),
      finished, ahead]
    rcases program_ahead does with more | ⟨same, less⟩
    · exact Prod.Lex.toLex_lt_toLex.2 (.inl (by dsimp only; omega))
    · rw [same]
      exact Prod.Lex.toLex_lt_toLex.2 (.inr ⟨rfl, Prod.Lex.toLex_lt_toLex.2
        (.inl (Nat.add_lt_add_right less _))⟩)

end

/-- Two programs that wake each other get through any number of entries, whatever the order of the
steps, as long as no thread wakes up unsignalled, unless they come to a halt at a receiving thread
that throws. -/
theorem entries_go_on (shares : ∀ p, setup.monitors p = [monitor])
    (alike : ∀ p, setup.state p monitor.1 = initial)
    (restores : ∀ old state,
      serialization.restoreState monitor old (serialization.saveState monitor state) = state)
    (short : monitor.1.length < 128) (exchanges : program.Exchanges initial)
    (registered : ∀ p q, (program p 0).waitsOn ∈ setup.conditions q)
    (run : Client.Run serialization setup monitor program moves c) (k : ℕ) :
    Inevitable (Client.step serialization monitor program) (fun c m => c.carriesOn m = true)
      (fun c => (c.Throws serialization ∧ c.Halted serialization monitor program) ∨
        k ≤ ∑ p, c.finished p) c := by
  obtain ⟨names, covered⟩ := covered_run (planned_run exchanges run)
  apply Inevitable.of_rank (I := fun c => (∃ moves, Client.Run serialization setup monitor program
    moves c) ∧ ∀ p, (c.system.process p).Covered names) (Client.rank program names k)
  · rintro c ⟨⟨moves, run⟩, -⟩ short'
    refine moves_of_not_halted fun halted => ?_
    have handled : ¬c.Throws serialization := fun throws => short' (.inl ⟨throws, halted⟩)
    exact goes_on shares alike restores (Nat.ne_of_lt (short.trans (by decide))) exchanges short
      registered run handled halted
  · rintro c m c' ⟨⟨moves, run⟩, covered⟩ short' on moved
    obtain ⟨e, -, does⟩ := client_does moved
    have wf := wellFormed_run (planned_run exchanges run)
    have fewer : ∑ p, c.finished p < k := Nat.lt_of_not_le fun enough => short' (.inr enough)
    exact ⟨⟨⟨_, .next run trivial moved⟩, covered_quiet wf covered (does_quiet does) does.taken⟩,
      rank_step wf covered fewer on does⟩
  · exact ⟨⟨moves, run⟩, covered⟩

theorem entries_handled (shares : ∀ p, setup.monitors p = [monitor])
    (short : monitor.1.length < 128) (exchanges : program.Exchanges initial)
    (registered : ∀ p q, (program p 0).waitsOn ∈ setup.conditions q)
    (inside : ∀ p k, (program p k).unlockFirst = false)
    (run : Client.Run serialization setup monitor program moves c) : ¬c.Throws serialization :=
  never_throws_inside (usage_ready shares short registered)
    (obeying_run (fun _ _ _ _ _ sound does => may_inside exchanges inside sound does) run)

end DistributedMonitor
