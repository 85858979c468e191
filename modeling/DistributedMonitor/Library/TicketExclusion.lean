import Mathlib.Data.Prod.Lex
import Mathlib.Data.Fintype.Card
import Mathlib.Order.WellFounded
import Mathlib.Logic.Relation

/-! Mutual exclusion by collected agreements. Every request takes a ticket, a
logical time broken by the identity of its process, and is entered when all other
processes have agreed to it. An agreement may be withheld from a request while a
process has a request of its own; what is agreed to while it has one must carry
the smaller ticket. -/

namespace DistributedMonitor.Library.TicketExclusion

inductive Phase where
  | idle
  | awaiting (time : ℕ)
  | holding (time : ℕ)
  | releasing (time : ℕ)
  deriving DecidableEq

inductive Token where
  | absent
  | requested
  | deferred
  | agreed
  | counted
  deriving DecidableEq

abbrev Ticket (P : Type*) := ℕ ×ₗ P

def ticket {P : Type*} (time : ℕ) (p : P) : Ticket P := toLex (time, p)

structure State (P : Type*) where
  clock : P → ℕ
  phase : P → Phase
  token : P → P → Token
  granted : List (Ticket P)

section
variable {P : Type*}

def Phase.time : Phase → Option ℕ
  | .idle => none
  | .awaiting t | .holding t | .releasing t => some t

/-- A request is active from the moment its ticket is drawn until its release begins. -/
def Phase.active : Phase → Option ℕ
  | .awaiting t | .holding t => some t
  | .idle | .releasing _ => none

def State.tick [DecidableEq P] (a : State P) (p : P) (t : ℕ) : State P :=
  { a with clock := fun x => if x = p then t else a.clock x }

def State.setPhase [DecidableEq P] (a : State P) (p : P) (phase : Phase) : State P :=
  { a with phase := fun x => if x = p then phase else a.phase x }

def State.setToken [DecidableEq P] (a : State P) (p q : P) (token : Token) : State P :=
  { a with token := fun x y => if x = p ∧ y = q then token else a.token x y }

def State.setTokens [DecidableEq P] (a : State P) (p : P) (token : Token) : State P :=
  { a with token := fun x y => if x = p then (if y = p then .absent else token) else a.token x y }

def Quiet : State P := ⟨fun _ => 0, fun _ => .idle, fun _ _ => .absent, []⟩

theorem State.tick_self [DecidableEq P] (a : State P) (p : P) : a.tick p (a.clock p) = a := by
  have same : (fun x => if x = p then a.clock p else a.clock x) = a.clock := by
    funext x
    by_cases mine : x = p <;> simp [mine]
  rw [State.tick, same]

end

variable {P : Type*} [LinearOrder P]

/-- The protocol. When `ordered` holds, a process defers only requests with a
ticket larger than its own and never asks again for what it holds; without it,
neither is wrong. -/
inductive Step (ordered : Prop) : State P → State P → Prop where
  | tick {a : State P} {p : P} {t : ℕ} (later : a.clock p ≤ t) : Step ordered a (a.tick p t)
  | request {a : State P} {p : P} {t : ℕ} (ready : a.phase p = .idle ∨ ∃ u, a.phase p = .holding u)
      (again : ordered → a.phase p = .idle) (later : a.clock p < t) :
      Step ordered a (((a.tick p t).setPhase p (.awaiting t)).setTokens p .requested)
  | agree {a : State P} {p q : P} {time t : ℕ} (sent : a.token p q = .requested)
      (asking : a.phase p = .awaiting time) (known : time < a.clock q)
      (smaller : ∀ u, (a.phase q).active = some u → ticket time p < ticket u q)
      (later : a.clock q ≤ t) : Step ordered a ((a.tick q t).setToken p q .agreed)
  | defer {a : State P} {p q : P} {time own : ℕ} (sent : a.token p q = .requested)
      (asking : a.phase p = .awaiting time) (known : time < a.clock q)
      (busy : (a.phase q).active = some own)
      (larger : ordered → ticket own q < ticket time p) :
      Step ordered a (a.setToken p q .deferred)
  | count {a : State P} {p q : P} (answered : a.token p q = .agreed) :
      Step ordered a (a.setToken p q .counted)
  | grant {a : State P} {p : P} {time : ℕ} (asking : a.phase p = .awaiting time)
      (complete : ∀ q, q ≠ p → a.token p q = .counted) :
      Step ordered a { (a.setPhase p (.holding time)).setTokens p .absent with
        granted := ticket time p :: a.granted }
  | release {a : State P} {p : P} {time : ℕ} (held : a.phase p = .holding time) :
      Step ordered a (a.setPhase p (.releasing time))
  | answer {a : State P} {p q : P} {own t : ℕ} (leaving : a.phase q = .releasing own)
      (waiting : a.token p q = .deferred) (later : a.clock q ≤ t) :
      Step ordered a ((a.tick q t).setToken p q .agreed)
  | finish {a : State P} {q : P} {own : ℕ} (leaving : a.phase q = .releasing own)
      (clear : ∀ p, a.token p q ≠ .deferred) : Step ordered a (a.setPhase q .idle)

structure Invariant (ordered : Prop) (a : State P) : Prop where
  token_awaiting : ∀ p q, a.token p q ≠ .absent → q ≠ p ∧ ∃ t, a.phase p = .awaiting t
  awaiting_token : ∀ p q t, a.phase p = .awaiting t → q ≠ p → a.token p q ≠ .absent
  own_clock : ∀ p t, (a.phase p).time = some t → t ≤ a.clock p
  known_clock : ∀ p q t, a.phase p = .awaiting t → a.token p q ≠ .absent →
    a.token p q ≠ .requested → t < a.clock q
  held_clock : ∀ p q t, a.phase p = .holding t ∨ a.phase p = .releasing t → q ≠ p → t < a.clock q
  agreed_order : ∀ p q t u, a.phase p = .awaiting t →
    a.token p q = .agreed ∨ a.token p q = .counted →
    (a.phase q).active = some u → ticket t p < ticket u q
  held_order : ∀ p q t u, a.phase p = .holding t → q ≠ p →
    (a.phase q).active = some u → ticket t p < ticket u q
  deferred_busy : ∀ p q t, a.phase p = .awaiting t → a.token p q = .deferred →
    ∃ u, (a.phase q).time = some u ∧ (ordered → ticket u q < ticket t p)
  granted_clock : ∀ p, ∀ g ∈ a.granted, (ofLex g).1 ≤ a.clock p
  granted_order : ∀ p t, a.phase p = .awaiting t → ∀ g ∈ a.granted, g < ticket t p
  granted_sorted : a.granted.Pairwise (fun later earlier => earlier < later)

variable {ordered : Prop} {a b : State P}

theorem ticket_lt {t u : ℕ} {p q : P} : ticket t p < ticket u q ↔ t < u ∨ t = u ∧ p < q := by
  simp only [ticket, Prod.Lex.toLex_lt_toLex]

theorem invariant_quiet : Invariant ordered (Quiet : State P) := by
  constructor <;> simp [Quiet, Phase.time, Phase.active]

theorem invariant_tick (inv : Invariant ordered a) (p : P) {t : ℕ} (later : a.clock p ≤ t) :
    Invariant ordered (a.tick p t) := by
  have grows : ∀ x, a.clock x ≤ (a.tick p t).clock x := by
    intro x
    simp only [State.tick]
    split_ifs with same
    · exact same ▸ later
    · exact le_rfl
  exact {
    token_awaiting := inv.token_awaiting
    awaiting_token := inv.awaiting_token
    own_clock := fun x u stamp => (inv.own_clock x u stamp).trans (grows x)
    known_clock := fun x y u asking here received =>
      (inv.known_clock x y u asking here received).trans_le (grows y)
    held_clock := fun x y u held other => (inv.held_clock x y u held other).trans_le (grows y)
    agreed_order := inv.agreed_order
    held_order := inv.held_order
    deferred_busy := inv.deferred_busy
    granted_clock := fun x g member => (inv.granted_clock x g member).trans (grows x)
    granted_order := inv.granted_order
    granted_sorted := inv.granted_sorted }

theorem invariant_setToken (inv : Invariant ordered a) {p q : P} {time : ℕ} {token : Token}
    (sent : a.token p q ≠ .absent) (asking : a.phase p = .awaiting time) (moved : token ≠ .absent)
    (known : token ≠ .requested → time < a.clock q)
    (smaller : token = .agreed ∨ token = .counted →
      ∀ u, (a.phase q).active = some u → ticket time p < ticket u q)
    (busy : token = .deferred →
      ∃ u, (a.phase q).time = some u ∧ (ordered → ticket u q < ticket time p)) :
    Invariant ordered (a.setToken p q token) where
  token_awaiting := by
    intro x y here
    simp only [State.setToken] at here ⊢
    split_ifs at here with same
    · obtain ⟨rfl, rfl⟩ := same
      exact ⟨(inv.token_awaiting _ _ sent).1, time, asking⟩
    · exact inv.token_awaiting x y here
  awaiting_token := by
    intro x y u awaits other
    simp only [State.setToken]
    split_ifs with same
    · exact moved
    · exact inv.awaiting_token x y u awaits other
  own_clock := inv.own_clock
  known_clock := by
    intro x y u awaits here received
    simp only [State.setToken] at awaits here received ⊢
    split_ifs at here received with same
    · obtain ⟨rfl, rfl⟩ := same
      obtain rfl : time = u := Phase.awaiting.inj (asking.symm.trans awaits)
      exact known received
    · exact inv.known_clock x y u awaits here received
  held_clock := inv.held_clock
  agreed_order := by
    intro x y u v awaits given active
    simp only [State.setToken] at awaits given active
    split_ifs at given with same
    · obtain ⟨rfl, rfl⟩ := same
      obtain rfl : time = u := Phase.awaiting.inj (asking.symm.trans awaits)
      exact smaller given v active
    · exact inv.agreed_order x y u v awaits given active
  held_order := inv.held_order
  deferred_busy := by
    intro x y u awaits waiting
    simp only [State.setToken] at awaits waiting ⊢
    split_ifs at waiting with same
    · obtain ⟨rfl, rfl⟩ := same
      obtain rfl : time = u := Phase.awaiting.inj (asking.symm.trans awaits)
      exact busy waiting
    · exact inv.deferred_busy x y u awaits waiting
  granted_clock := inv.granted_clock
  granted_order := inv.granted_order
  granted_sorted := inv.granted_sorted

theorem Phase.time_of_active {phase : Phase} {t : ℕ} (active : phase.active = some t) :
    phase.time = some t := by
  cases phase <;> simp_all [Phase.active, Phase.time]

/-- A fresh ticket is larger than everything agreed to or granted so far. -/
theorem invariant_request (inv : Invariant ordered a) {p : P} {t : ℕ}
    (again : ordered → a.phase p = .idle) (later : a.clock p < t) :
    Invariant ordered (((a.tick p t).setPhase p (.awaiting t)).setTokens p .requested) := by
  have fresh : ∀ x u, u < t → ticket u x < ticket t p := fun x u less => ticket_lt.2 (.inl less)
  constructor
  all_goals simp only [State.setTokens, State.setPhase, State.tick]
  · intro x y here
    by_cases same : x = p
    · subst same
      simp only [if_true] at here ⊢
      exact ⟨fun mine => here (if_pos mine), t, rfl⟩
    · simp only [if_neg same] at here ⊢
      exact inv.token_awaiting x y here
  · intro x y u awaits other
    by_cases same : x = p
    · subst same
      simp [other]
    · simp only [if_neg same] at awaits ⊢
      exact inv.awaiting_token x y u awaits other
  · intro x u stamp
    by_cases same : x = p
    · simp only [if_pos same, Phase.time, Option.some.injEq] at stamp ⊢
      exact stamp.ge
    · simp only [if_neg same] at stamp ⊢
      exact inv.own_clock x u stamp
  · intro x y u awaits here received
    by_cases same : x = p
    · subst same
      by_cases mine : y = x <;> simp [mine] at here received
    · simp only [if_neg same] at awaits here received
      have known := inv.known_clock x y u awaits here received
      split_ifs with mine
      · exact (mine ▸ known).trans later
      · exact known
  · intro x y u held other
    by_cases same : x = p
    · simp [same] at held
    · simp only [if_neg same] at held
      have known := inv.held_clock x y u held other
      split_ifs with mine
      · exact (mine ▸ known).trans later
      · exact known
  · intro x y u v awaits given active
    by_cases same : x = p
    · subst same
      by_cases mine : y = x <;> simp [mine] at given
    · simp only [if_neg same] at awaits given
      by_cases mine : y = p
      · subst mine
        simp only [if_true, Phase.active, Option.some.injEq] at active
        have known := inv.known_clock x y u awaits (by rcases given with h | h <;> simp [h])
          (by rcases given with h | h <;> simp [h])
        exact active ▸ fresh x u (known.trans later)
      · simp only [if_neg mine] at active
        exact inv.agreed_order x y u v awaits given active
  · intro x y u v held other active
    by_cases same : x = p
    · simp [same] at held
    · simp only [if_neg same] at held
      by_cases mine : y = p
      · subst mine
        simp only [if_true, Phase.active, Option.some.injEq] at active
        exact active ▸ fresh x u ((inv.held_clock x y u (.inl held) other).trans later)
      · simp only [if_neg mine] at active
        exact inv.held_order x y u v held other active
  · intro x y u awaits waiting
    by_cases same : x = p
    · subst same
      by_cases mine : y = x <;> simp [mine] at waiting
    · simp only [if_neg same] at awaits waiting
      obtain ⟨v, stamp, larger⟩ := inv.deferred_busy x y u awaits waiting
      by_cases mine : y = p
      · subst mine
        refine ⟨t, by simp [Phase.time], fun strict => ?_⟩
        simp [again strict, Phase.time] at stamp
      · exact ⟨v, by simpa only [if_neg mine] using stamp, larger⟩
  · intro x g member
    have old := inv.granted_clock x g member
    split_ifs with mine
    · exact (mine ▸ old).trans later.le
    · exact old
  · intro x u awaits g member
    by_cases same : x = p
    · simp only [if_pos same, Phase.awaiting.injEq] at awaits
      subst same awaits
      exact fresh _ _ ((inv.granted_clock x g member).trans_lt later)
    · simp only [if_neg same] at awaits
      exact inv.granted_order x u awaits g member
  · exact inv.granted_sorted

theorem invariant_grant (inv : Invariant ordered a) {p : P} {time : ℕ}
    (asking : a.phase p = .awaiting time) (complete : ∀ q, q ≠ p → a.token p q = .counted) :
    Invariant ordered { (a.setPhase p (.holding time)).setTokens p .absent with
      granted := ticket time p :: a.granted } := by
  have known : ∀ q, q ≠ p → time < a.clock q := fun q other =>
    inv.known_clock p q time asking (by simp [complete q other]) (by simp [complete q other])
  have smaller : ∀ q u, q ≠ p → (a.phase q).active = some u → ticket time p < ticket u q :=
    fun q u other active => inv.agreed_order p q time u asking (.inr (complete q other)) active
  have active : ∀ y u, (if y = p then Phase.holding time else a.phase y).active = some u →
      (a.phase y).active = some u := by
    intro y u stamp
    split_ifs at stamp with mine
    · rw [mine, asking]
      exact stamp
    · exact stamp
  constructor
  all_goals simp only [State.setTokens, State.setPhase]
  · intro x y here
    by_cases same : x = p
    · simp [same] at here
    · simp only [if_neg same] at here ⊢
      exact inv.token_awaiting x y here
  · intro x y u awaits other
    by_cases same : x = p
    · simp [same] at awaits
    · simp only [if_neg same] at awaits ⊢
      exact inv.awaiting_token x y u awaits other
  · intro x u stamp
    by_cases same : x = p
    · simp only [if_pos same, Phase.time, Option.some.injEq] at stamp
      subst same stamp
      exact inv.own_clock x time (by rw [asking]; rfl)
    · simp only [if_neg same] at stamp
      exact inv.own_clock x u stamp
  · intro x y u awaits here received
    by_cases same : x = p
    · simp [same] at awaits
    · simp only [if_neg same] at awaits here received
      exact inv.known_clock x y u awaits here received
  · intro x y u held other
    by_cases same : x = p
    · simp only [if_pos same, Phase.holding.injEq, reduceCtorEq, or_false] at held
      subst same held
      exact known y other
    · simp only [if_neg same] at held
      exact inv.held_clock x y u held other
  · intro x y u v awaits given busy
    by_cases same : x = p
    · simp [same] at awaits
    · simp only [if_neg same] at awaits given
      exact inv.agreed_order x y u v awaits given (active y v busy)
  · intro x y u v held other busy
    by_cases same : x = p
    · simp only [if_pos same, Phase.holding.injEq] at held
      subst same held
      exact smaller y v other (active y v busy)
    · simp only [if_neg same] at held
      exact inv.held_order x y u v held other (active y v busy)
  · intro x y u awaits waiting
    by_cases same : x = p
    · simp [same] at awaits
    · simp only [if_neg same] at awaits waiting
      obtain ⟨v, stamp, larger⟩ := inv.deferred_busy x y u awaits waiting
      refine ⟨v, ?_, larger⟩
      split_ifs with mine
      · rw [mine, asking] at stamp
        exact stamp
      · exact stamp
  · intro x g member
    rcases List.mem_cons.1 member with rfl | old
    · by_cases mine : x = p
      · exact inv.own_clock x time (by rw [mine, asking]; rfl)
      · exact (known x mine).le
    · exact inv.granted_clock x g old
  · intro x u awaits g member
    by_cases same : x = p
    · simp [same] at awaits
    · simp only [if_neg same] at awaits
      rcases List.mem_cons.1 member with rfl | old
      · exact smaller x u same (by rw [awaits]; rfl)
      · exact inv.granted_order x u awaits g old
  · exact List.pairwise_cons.2 ⟨fun g member => inv.granted_order p time asking g member,
      inv.granted_sorted⟩

theorem invariant_leave (inv : Invariant ordered a) {p : P} {phase : Phase}
    (held : ∃ u, a.phase p = .holding u ∨ a.phase p = .releasing u)
    (left : phase = .idle ∨ ∃ u, phase = .releasing u) (stamp : ∀ u, phase.time = some u →
      (a.phase p).time = some u) (clear : phase = .idle → ∀ x, a.token x p ≠ .deferred) :
    Invariant ordered (a.setPhase p phase) := by
  obtain ⟨own, held⟩ := held
  have notAwaiting : ∀ t, phase ≠ .awaiting t := by rcases left with rfl | ⟨u, rfl⟩ <;> simp
  have notHolding : ∀ t, phase ≠ .holding t := by rcases left with rfl | ⟨u, rfl⟩ <;> simp
  have inactive : phase.active = none := by rcases left with rfl | ⟨u, rfl⟩ <;> rfl
  have awaits : ∀ x t, (if x = p then phase else a.phase x) = .awaiting t →
      a.phase x = .awaiting t := by
    intro x t same
    split_ifs at same with mine
    · exact absurd same (notAwaiting t)
    · exact same
  have holds : ∀ x t, (if x = p then phase else a.phase x) = .holding t →
      a.phase x = .holding t := by
    intro x t same
    split_ifs at same with mine
    · exact absurd same (notHolding t)
    · exact same
  have active : ∀ y u, (if y = p then phase else a.phase y).active = some u →
      (a.phase y).active = some u := by
    intro y u busy
    split_ifs at busy with mine
    · simp [inactive] at busy
    · exact busy
  constructor
  all_goals simp only [State.setPhase]
  · intro x y here
    obtain ⟨other, t, asking⟩ := inv.token_awaiting x y here
    have notMine : x ≠ p := by
      rintro rfl
      rcases held with h | h <;> simp [h] at asking
    exact ⟨other, t, by simpa only [if_neg notMine] using asking⟩
  · exact fun x y t asking other => inv.awaiting_token x y t (awaits x t asking) other
  · intro x t time
    split_ifs at time with mine
    · exact inv.own_clock x t (mine ▸ stamp t time)
    · exact inv.own_clock x t time
  · exact fun x y t asking here received => inv.known_clock x y t (awaits x t asking) here received
  · intro x y t leaving other
    split_ifs at leaving with mine
    · have time : (a.phase p).time = some t := by
        rcases leaving with rfl | rfl
        · exact absurd rfl (notHolding t)
        · exact stamp t rfl
      subst mine
      rcases held with h | h <;> rw [h] at time <;> cases time
      · exact inv.held_clock x y _ (.inl h) other
      · exact inv.held_clock x y _ (.inr h) other
    · exact inv.held_clock x y t leaving other
  · exact fun x y t u asking given busy =>
      inv.agreed_order x y t u (awaits x t asking) given (active y u busy)
  · exact fun x y t u holding other busy =>
      inv.held_order x y t u (holds x t holding) other (active y u busy)
  · intro x y t asking waiting
    obtain ⟨u, time, larger⟩ := inv.deferred_busy x y t (awaits x t asking) waiting
    refine ⟨u, ?_, larger⟩
    split_ifs with mine
    · rcases left with rfl | ⟨v, rfl⟩
      · exact absurd (mine ▸ waiting) (clear rfl x)
      · exact (stamp v rfl).symm.trans (mine ▸ time)
    · exact time
  · exact inv.granted_clock
  · exact fun x t asking => inv.granted_order x t (awaits x t asking)
  · exact inv.granted_sorted

theorem invariant_step (inv : Invariant ordered a) (step : Step ordered a b) :
    Invariant ordered b := by
  cases step with
  | tick later => exact invariant_tick inv _ later
  | request ready again later => exact invariant_request inv again later
  | agree sent asking known smaller later =>
    exact invariant_setToken (invariant_tick inv _ later) (by simp [State.tick, sent]) asking
      (by decide) (fun _ => by simpa [State.tick] using known.trans_le later)
      (fun _ => smaller) (fun impossible => by cases impossible)
  | defer sent asking known busy larger =>
    exact invariant_setToken inv (by simp [sent]) asking (by decide) (fun _ => known)
      (fun given => by simp at given) (fun _ => ⟨_, Phase.time_of_active busy, larger⟩)
  | @count p q answered =>
    obtain ⟨-, time, asking⟩ := inv.token_awaiting p q (by simp [answered])
    exact invariant_setToken inv (by simp [answered]) asking (by decide)
      (fun _ => inv.known_clock p q time asking (by simp [answered]) (by simp [answered]))
      (fun _ u active => inv.agreed_order p q time u asking (.inl answered) active)
      (fun impossible => by cases impossible)
  | grant asking complete => exact invariant_grant inv asking complete
  | @release p time held =>
    exact invariant_leave inv ⟨time, .inl held⟩ (.inr ⟨time, rfl⟩)
      (fun u stamp => by rw [held]; exact stamp) (fun impossible => by cases impossible)
  | @answer p q own t leaving waiting later =>
    obtain ⟨-, time, asking⟩ := inv.token_awaiting p q (by simp [waiting])
    have known := inv.known_clock p q time asking (by simp [waiting]) (by simp [waiting])
    exact invariant_setToken (invariant_tick inv _ later) (by simp [State.tick, waiting]) asking
      (by decide) (fun _ => by simpa [State.tick] using known.trans_le later)
      (fun _ u active => by simp [State.tick, leaving, Phase.active] at active)
      (fun impossible => by cases impossible)
  | @finish q own leaving clear =>
    exact invariant_leave inv ⟨own, .inr leaving⟩ (.inl rfl) (fun u stamp => by cases stamp)
      (fun _ => clear)

theorem invariant_chain (inv : Invariant ordered a)
    (chain : Relation.ReflTransGen (Step ordered) a b) : Invariant ordered b := by
  induction chain with
  | refl => exact inv
  | tail _ step ih => exact invariant_step ih step

/-- Two holders would each carry the smaller ticket. -/
theorem Invariant.exclusive (inv : Invariant ordered a) {p q : P} {t u : ℕ}
    (first : a.phase p = .holding t) (second : a.phase q = .holding u) : p = q := by
  by_contra different
  have forward := inv.held_order p q t u first (Ne.symm different) (by rw [second]; rfl)
  have backward := inv.held_order q p u t second different (by rw [first]; rfl)
  exact lt_asymm forward backward

theorem Invariant.holder_withholds (inv : Invariant ordered a) {p q : P} {t u : ℕ}
    (asking : a.phase p = .awaiting t) (held : a.phase q = .holding u) :
    a.token p q ≠ .agreed ∧ a.token p q ≠ .counted := by
  have different : p ≠ q := by
    rintro rfl
    rw [asking] at held
    cases held
  have backward := inv.held_order q p u t held different (by rw [asking]; rfl)
  have refuted : ∀ given : a.token p q = .agreed ∨ a.token p q = .counted, False := fun given =>
    lt_asymm backward (inv.agreed_order p q t u asking given (by rw [held]; rfl))
  exact ⟨fun agreed => refuted (.inl agreed), fun counted => refuted (.inr counted)⟩

/-- Ordered deferral has no cycle: when nothing is under way and nobody is inside,
the request with the smallest ticket has been agreed to by everyone. -/
theorem Invariant.smallest_complete [Finite P] (inv : Invariant True a)
    (settled : ∀ p q, a.token p q ≠ .requested ∧ a.token p q ≠ .agreed)
    (nobody : ∀ p t, a.phase p ≠ .holding t ∧ a.phase p ≠ .releasing t)
    {p : P} {t : ℕ} (asking : a.phase p = .awaiting t) :
    ∃ q u, a.phase q = .awaiting u ∧ ∀ r, r ≠ q → a.token q r = .counted := by
  let waiting : Set (Ticket P) := { g | ∃ q u, a.phase q = .awaiting u ∧ g = ticket u q }
  have wellFounded : WellFounded (fun g h : Ticket P => g < h) := wellFounded_lt
  obtain ⟨least, ⟨q, u, first, rfl⟩, minimal⟩ :=
    wellFounded.has_min waiting ⟨_, p, t, asking, rfl⟩
  refine ⟨q, u, first, fun r other => ?_⟩
  cases place : a.token q r with
  | absent => exact absurd place (inv.awaiting_token q r u first other)
  | requested => exact absurd place (settled q r).1
  | agreed => exact absurd place (settled q r).2
  | counted => rfl
  | deferred =>
    obtain ⟨v, stamp, larger⟩ := inv.deferred_busy q r u first place
    have busy : a.phase r = .awaiting v := by
      cases phase : a.phase r with
      | idle => simp [phase, Phase.time] at stamp
      | awaiting w => simpa [phase, Phase.time] using stamp
      | holding w => exact absurd phase (nobody r w).1
      | releasing w => exact absurd phase (nobody r w).2
    exact absurd (larger trivial) (minimal _ ⟨r, v, busy, rfl⟩)

end DistributedMonitor.Library.TicketExclusion
