import DistributedMonitor.Waiters

/-! Several monitors on one set of algorithms. They do not interfere through their condition
variables as long as no two of them give one the same name; nothing else tells them apart. -/

namespace DistributedMonitor
open Library

variable {n : ℕ} {σ : Type} {communicator : Communicator} {serialization : Serialization σ}
  {setup : Setup n σ} {contract : Permission (System n σ) (Event n σ)}
  {trace : Trace (System n σ) (Event n σ)} {s s' : System n σ} {e : Event n σ}
  {condName : CondName} {p q r : ProcessId n} {packet : Packet n}
  {owns : MonitorName → CondName → Bool} {monitor : MonitorName}

/-- Every wait goes through a condition variable of the monitor whose mutex it is given. -/
def throughMonitors (owns : MonitorName → CondName → Bool) (monitors : List MonitorName)
    (_ : System n σ) (e : Event n σ) : Bool :=
  match e.2 with
  | .wait condName mutex _ => monitors.any fun monitor => mutex = monitor.1 && owns monitor condName
  | _ => true

def System.WaitsIn (s : System n σ) (monitor : MonitorName) (condName : CondName)
    (p : ProcessId n) : Prop :=
  ∃ call, (s.process p).main.waitCall = some call ∧ call.condName = condName ∧
    call.mutex = monitor.1

/-- What the monitors may expect of each other, whoever owns a name. -/
structure Isolated (communicator : Communicator) (serialization : Serialization σ)
    (owns : MonitorName → CondName → Bool) (s : System n σ) : Prop where
  /-- A notification is sent to nobody, or to processes that wait in the same monitor. -/
  notified : ∀ monitor condName q s', owns monitor condName = true →
    step communicator serialization s (q, .notifyOne condName) = some s' ∨
      step communicator serialization s (q, .notifyAll condName) = some s' →
    (s'.process q).main = .running ∨ ∃ recipients,
      NotifiesExactly communicator serialization condName q recipients s' ∧
      ∀ r ∈ recipients, s.WaitsIn monitor condName r
  /-- A notification that changes anything wakes a wait in the same monitor. -/
  woken : ∀ monitor p packet s', owns monitor packet.message = true →
    (s.process p).receiving = .received packet → packet.messageType = .condNotify →
    step communicator serialization s (p, .dispatch) = some s' →
    (s'.process p).main = (s.process p).main ∨ s.WaitsIn monitor packet.message p
  /-- The end of a wait keeps all waits in other monitors listed, and lists no others. -/
  ended : ∀ monitor condName p q s', owns monitor condName = true →
    (s.process q).endOf condName p = true → s.WaitsIn monitor condName p →
    step communicator serialization s (q, .dispatch) = some s' →
    ∀ other name, other ≠ monitor → owns other name = true →
      ∀ r, s.WaitsIn other name r → (s'.process q).lists name r = (s.process q).lists name r

theorem waiting_through {monitors : List MonitorName}
    (run : Run communicator serialization setup (Obeying (throughMonitors owns monitors)) trace s)
    {call : WaitCall σ} (waits : (s.process p).main.waitCall = some call) :
    ∃ monitor ∈ monitors, call.mutex = monitor.1 ∧ owns monitor call.condName = true := by
  have always : ∀ p call, (s.process p).main.waitCall = some call →
      ∃ monitor ∈ monitors, call.mutex = monitor.1 ∧ owns monitor call.condName = true := by
    refine process_run (P := fun process => ∀ call, process.main.waitCall = some call →
      ∃ monitor ∈ monitors, call.mutex = monitor.1 ∧ owns monitor call.condName = true) run ?_ ?_ ?_
    · exact fun p => nofun
    · exact fun process clock receiving before => before
    · intro trace s self action consumed process' sent run may before does call waits
      rcases waitCall_step does waits with already | rfl
      · exact before call already
      · obtain ⟨monitor, member, both⟩ := List.any_eq_true.1 may
        obtain ⟨mutex, owned⟩ := Bool.and_eq_true_iff.1 both
        exact ⟨monitor, member, of_decide_eq_true mutex, owned⟩
  exact always p call waits

theorem inside_of_listed (run : Run communicator serialization setup contract trace s)
    (listed : (s.process q).lists condName p = true) :
    (s.process p).main.insideWait condName = true := by
  by_contra outside
  have unlisted := (settled_outside run (Bool.eq_false_iff.2 outside) q).unlisted
  rw [listed] at unlisted
  cases unlisted

section
variable {monitors : List MonitorName}
  (distinct : ∀ first second condName, owns first condName = true → owns second condName = true →
    first = second)
  (run : Run communicator serialization setup (Obeying (throughMonitors owns monitors)) trace s)
include distinct run

theorem waitsIn_of_inside (owned : owns monitor condName = true)
    (inside : (s.process p).main.insideWait condName = true) : s.WaitsIn monitor condName p := by
  obtain ⟨call, waits, rfl⟩ := inside_iff.1 inside
  obtain ⟨home, -, mutex, owned'⟩ := waiting_through run waits
  exact ⟨call, waits, rfl, distinct home monitor _ owned' owned ▸ mutex⟩

theorem notified_here (owned : owns monitor condName = true)
    (taken : step communicator serialization s (q, .notifyOne condName) = some s' ∨
      step communicator serialization s (q, .notifyAll condName) = some s') :
    (s'.process q).main = .running ∨ ∃ recipients,
      NotifiesExactly communicator serialization condName q recipients s' ∧
      ∀ r ∈ recipients, s.WaitsIn monitor condName r := by
  have wf := wellFormed_run run
  have waits : ∀ r ∈ ((s.process q).waits condName).senders, s.WaitsIn monitor condName r :=
    fun r member => waitsIn_of_inside distinct run owned (inside_of_listed run (decide_eq_true member))
  rcases taken with taken | taken
  · cases packets : ((s.process q).waits condName).packets with
    | nil => exact .inl (notifyOne_nobody packets taken)
    | cons packet rest =>
      refine .inr ⟨_, notifiesExactly (wf.step (systemStep wf taken)) (notifyOne_first packets taken), ?_⟩
      intro r member
      apply waits
      rw [Finset.mem_singleton.1 member, StampedSet.senders, packets]
      exact List.mem_cons_self ..
  · rcases notifyAll_listed taken with main | ⟨-, main⟩
    · refine .inr ⟨_, notifiesExactly (wf.step (systemStep wf taken)) main, fun r member => ?_⟩
      exact waits r (List.mem_toFinset.1 member)
    · exact .inl main

theorem woken_here (owned : owns monitor packet.message = true)
    (received : (s.process p).receiving = .received packet) (type : packet.messageType = .condNotify)
    (taken : step communicator serialization s (p, .dispatch) = some s') :
    s.WaitsIn monitor packet.message p := by
  apply waitsIn_of_inside distinct run owned
  cases systemStep (wellFormed_run run) taken with
  | acts does =>
    cases does with
    | main does => exact absurd rfl (mainStep_not_dispatch does)
    | dispatch received' _ _ does =>
      cases received.symm.trans received'
      cases does with
      | notified _ waits named => exact inside_iff.2 ⟨_, waits, named.symm⟩
      | agreed type' | deferred type' | early type' | counted type' | waiting type' | ended type'
      | confirmed type' | synced type' => cases type.symm.trans type'

theorem ended_elsewhere {other : MonitorName} {name : CondName}
    (owned : owns monitor condName = true) (ends : (s.process q).endOf condName p = true)
    (taken : step communicator serialization s (q, .dispatch) = some s')
    (differs : other ≠ monitor) (owned' : owns other name = true) :
    (s'.process q).waits name = (s.process q).waits name := by
  apply (dispatch_end run ends taken).2
  rintro rfl
  exact differs (distinct other monitor _ owned' owned)

/-- Monitors whose condition variables have different names are isolated in every run. -/
theorem monitors_isolated : Isolated communicator serialization owns s where
  notified monitor condName q s' owned taken := notified_here distinct run owned taken
  woken monitor p packet s' owned received type taken :=
    .inr (woken_here distinct run owned received type taken)
  ended monitor condName p q s' owned ends _ taken other name differs owned' r _ := by
    rw [Process.lists, Process.lists, ended_elsewhere distinct run owned ends taken differs owned']

end

def annex : MonitorName := ⟨[110], by decide⟩

def views : CondName := [118]

def twin (n : ℕ) : Setup n ℕ where
  mutexes _ := ∅
  conditions _ := {news, views}
  monitors _ := [board, annex]
  state _ _ := 0

def waitElsewhere (p q : ProcessId n) (condName : CondName) : List (Event n ℕ) :=
  [[(p, .lock annex.1), (p, .queue)], deliver p q, deliver q p, [(p, .acquired),
    (p, .wait condName annex.1 (· == 1)), (p, .announce)], deliver p q, [(q, .lock board.1),
    (q, .queue)], deliver q p, deliver p q, [(q, .acquired)]].flatten

def ownedBy (first second : CondName) (monitor : MonitorName) (condName : CondName) : Bool :=
  monitor = board ∧ condName = first ∨ monitor = annex ∧ condName = second

theorem monitors_isolated_two : ∃ trace s, Run .simple unary (twin 2)
    (Obeying (throughMonitors (ownedBy news views) [board, annex])) trace s ∧
      (step .simple unary s (1, .notifyOne news)).isSome ∧
      (∃ call, (s.process 0).main.waitCall = some call) ∧
      Isolated .simple unary (ownedBy news views) s := by
  obtain ⟨trace, s, run, reached⟩ := exists_run .simple unary (twin 2)
    (Obeying (throughMonitors (ownedBy news views) [board, annex])) (waitElsewhere 0 1 views)
    (fun _ s => (step .simple unary s (1, .notifyOne news)).isSome ∧
      (s.process 0).main.waitCall.isSome) (by decide +kernel)
  obtain ⟨taken, waits⟩ := of_decide_eq_true reached
  refine ⟨trace, s, run, taken, Option.isSome_iff_exists.1 waits, ?_⟩
  apply monitors_isolated _ run
  intro first second condName owned owned'
  unfold ownedBy at owned owned'
  rcases of_decide_eq_true owned with ⟨rfl, rfl⟩ | ⟨rfl, rfl⟩
  · exact ((of_decide_eq_true owned').resolve_right fun both => by cases both.2).1.symm
  · exact ((of_decide_eq_true owned').resolve_left fun both => by cases both.2).1.symm

/-- The two monitors have given their condition variables the same name, and a notification in
one of them goes to a process that waits in the other. -/
theorem monitors_interfere_two : ¬∀ trace s, Run .simple unary (twin 2)
    (Obeying (throughMonitors (ownedBy news news) [board, annex])) trace s →
    Isolated .simple unary (ownedBy news news) s := by
  intro isolated
  obtain ⟨trace, s, run, reached⟩ := exists_run .simple unary (twin 2)
    (Obeying (throughMonitors (ownedBy news news) [board, annex])) (waitElsewhere 0 1 news)
    (fun _ s => ((step .simple unary s (1, .notifyOne news)).any
        fun s' => (s'.process 1).main.recipients news = {0}) ∧
      (s.process 0).main.waitCall.map (·.mutex) = some annex.1) (by decide +kernel)
  obtain ⟨notifies, waits⟩ := of_decide_eq_true reached
  obtain ⟨s', taken, picked⟩ := (Option.any_eq_true ..).1 notifies
  have picked : (s'.process 1).main.recipients news = {0} := of_decide_eq_true picked
  rcases (isolated trace s run).notified board news 1 s' (by decide) (.inl taken) with
    running | ⟨recipients, exactly, waiting⟩
  · rw [running] at picked
    exact absurd picked.symm (Finset.singleton_ne_empty 0)
  · rw [(exactly [] s' (.start rfl)).1, MainThread.recipients, if_pos rfl] at picked
    subst picked
    obtain ⟨call, waits', -, mutex⟩ := waiting 0 (Finset.mem_singleton_self 0)
    rw [waits', Option.map_some, mutex] at waits
    exact absurd waits (by decide)

end DistributedMonitor
