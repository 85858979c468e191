import Mathlib.Data.List.Basic

/-! Registration of interest over FIFO channels. A client announces itself to a
registrar and later withdraws; the registrar notifies whom it lists and acknowledges
a withdrawal, and the client is done once it has read the acknowledgement. One
client and one registrar make a pair. -/

namespace DistributedMonitor.Library.Registration

inductive Stage where
  | outside
  | inside
  | closing
  deriving DecidableEq

inductive Signal where
  | announce
  | withdraw
  deriving DecidableEq

inductive Answer where
  | notice
  | acknowledge
  deriving DecidableEq

@[ext] structure Pair where
  stage : Stage
  signals : List Signal
  answers : List Answer
  listed : Prop
  acknowledged : Prop
  /-- The registrar has picked the client and not yet sent the notice. -/
  notifying : Prop

/-- The registrar need not record an announcement, and may drop a client at any time. It
hears a withdrawal only while it is not about to notify the client. -/
inductive Step (s : Pair) : Pair → Prop where
  | announce (before : s.stage = .outside) :
      Step s { s with stage := .inside, signals := s.signals ++ [.announce] }
  | withdraw (before : s.stage = .inside) :
      Step s { s with stage := .closing, signals := s.signals ++ [.withdraw] }
  | finish (before : s.stage = .closing) (done : s.acknowledged) :
      Step s { s with stage := .outside, acknowledged := False }
  | hear {rest : List Signal} {listed : Prop} (head : s.signals = .announce :: rest) :
      Step s { s with signals := rest, listed := listed }
  | forget {rest : List Signal} (head : s.signals = .withdraw :: rest) (idle : ¬s.notifying) :
      Step s { s with
        signals := rest
        listed := False
        answers := s.answers ++ [.acknowledge] }
  | unlist {listed : Prop} (less : listed → s.listed) : Step s { s with listed := listed }
  | pick {notifying : Prop} (known : notifying → s.listed) : Step s { s with notifying := notifying }
  | notify (picked : s.notifying) :
      Step s { s with answers := s.answers ++ [.notice], notifying := False }
  | read {rest : List Answer} (head : s.answers = .notice :: rest) : Step s { s with answers := rest }
  | acknowledge {rest : List Answer} (head : s.answers = .acknowledge :: rest) :
      Step s { s with answers := rest, acknowledged := True }

/-- The seven positions of a pair. Notices travel while the client is listed or was,
and ahead of the acknowledgement. -/
inductive Sound (s : Pair) : Prop where
  | outside (stage : s.stage = .outside) (signals : s.signals = []) (answers : s.answers = [])
      (unlisted : ¬s.listed) (open' : ¬s.acknowledged) (idle : ¬s.notifying)
  | announced (stage : s.stage = .inside) (signals : s.signals = [.announce])
      (answers : s.answers = []) (unlisted : ¬s.listed) (open' : ¬s.acknowledged)
      (idle : ¬s.notifying)
  | known (stage : s.stage = .inside) (signals : s.signals = [])
      (answers : ∀ answer ∈ s.answers, answer = .notice) (open' : ¬s.acknowledged)
  | announcedEnding (stage : s.stage = .closing) (signals : s.signals = [.announce, .withdraw])
      (answers : s.answers = []) (unlisted : ¬s.listed) (open' : ¬s.acknowledged)
      (idle : ¬s.notifying)
  | ending (stage : s.stage = .closing) (signals : s.signals = [.withdraw])
      (answers : ∀ answer ∈ s.answers, answer = .notice) (open' : ¬s.acknowledged)
  | acknowledging {notices : List Answer} (stage : s.stage = .closing) (signals : s.signals = [])
      (answers : s.answers = notices ++ [.acknowledge])
      (only : ∀ answer ∈ notices, answer = .notice) (unlisted : ¬s.listed)
      (open' : ¬s.acknowledged) (idle : ¬s.notifying)
  | acknowledged (stage : s.stage = .closing) (signals : s.signals = []) (answers : s.answers = [])
      (unlisted : ¬s.listed) (done : s.acknowledged) (idle : ¬s.notifying)

variable {s s' : Pair}

theorem Sound.notified (sound : Sound s) (notice : Answer.notice ∈ s.answers) :
    s.stage ≠ .outside := by
  cases sound with
  | outside _ _ answers | announced _ _ answers | announcedEnding _ _ answers
  | acknowledged _ _ answers =>
    rw [answers] at notice
    cases notice
  | known stage | ending stage | acknowledging stage =>
    rw [stage]
    exact nofun

theorem Sound.withdrawing (sound : Sound s) (withdrawal : Signal.withdraw ∈ s.signals) :
    s.stage = .closing := by
  cases sound with
  | outside _ signals | known _ signals | acknowledging _ signals | acknowledged _ signals =>
    rw [signals] at withdrawal
    cases withdrawal
  | announced _ signals =>
    rw [signals] at withdrawal
    cases List.mem_singleton.1 withdrawal
  | announcedEnding stage | ending stage => exact stage

theorem Step.to {t u : Pair} (step : Step s t) (stage : u.stage = t.stage)
    (signals : u.signals = t.signals) (answers : u.answers = t.answers)
    (listed : u.listed = t.listed) (acknowledged : u.acknowledged = t.acknowledged)
    (notifying : u.notifying = t.notifying) : Step s u :=
  Pair.ext stage signals answers listed acknowledged notifying ▸ step

theorem Sound.step (sound : Sound s) (step : Step s s') : Sound s' := by
  cases step with
  | announce before =>
    cases sound with
    | outside _ signals answers unlisted open' idle =>
      exact .announced rfl (by rw [signals]; rfl) answers unlisted open' idle
    | announced stage | known stage | announcedEnding stage | ending stage | acknowledging stage
    | acknowledged stage => cases before.symm.trans stage
  | withdraw before =>
    cases sound with
    | announced _ signals answers unlisted open' idle =>
      exact .announcedEnding rfl (by rw [signals]; rfl) answers unlisted open' idle
    | known _ signals answers open' => exact .ending rfl (by rw [signals]; rfl) answers open'
    | outside stage | announcedEnding stage | ending stage | acknowledging stage
    | acknowledged stage => cases before.symm.trans stage
  | finish before done =>
    cases sound with
    | acknowledged _ signals answers unlisted _ idle =>
      exact .outside rfl signals answers unlisted id idle
    | outside _ _ _ _ open' | announced _ _ _ _ open' | known _ _ _ open'
    | announcedEnding _ _ _ _ open' | ending _ _ _ open' | acknowledging _ _ _ _ _ open' =>
      exact absurd done open'
  | hear head =>
    cases sound with
    | announced stage signals answers _ open' =>
      exact .known stage (List.cons.inj (head.symm.trans signals)).2 (by simp [answers]) open'
    | announcedEnding stage signals answers _ open' =>
      exact .ending stage (List.cons.inj (head.symm.trans signals)).2 (by simp [answers]) open'
    | outside _ signals | known _ signals | ending _ signals | acknowledging _ signals
    | acknowledged _ signals => cases head.symm.trans signals
  | forget head idle =>
    cases sound with
    | ending stage signals answers open' =>
      exact .acknowledging stage (List.cons.inj (head.symm.trans signals)).2 rfl answers id open' idle
    | outside _ signals | announced _ signals | known _ signals | announcedEnding _ signals
    | acknowledging _ signals | acknowledged _ signals => cases head.symm.trans signals
  | unlist less =>
    cases sound with
    | outside stage signals answers unlisted open' idle =>
      exact .outside stage signals answers (unlisted ∘ less) open' idle
    | announced stage signals answers unlisted open' idle =>
      exact .announced stage signals answers (unlisted ∘ less) open' idle
    | known stage signals answers open' => exact .known stage signals answers open'
    | announcedEnding stage signals answers unlisted open' idle =>
      exact .announcedEnding stage signals answers (unlisted ∘ less) open' idle
    | ending stage signals answers open' => exact .ending stage signals answers open'
    | acknowledging stage signals answers only unlisted open' idle =>
      exact .acknowledging stage signals answers only (unlisted ∘ less) open' idle
    | acknowledged stage signals answers unlisted done idle =>
      exact .acknowledged stage signals answers (unlisted ∘ less) done idle
  | pick known =>
    cases sound with
    | outside stage signals answers unlisted open' =>
      exact .outside stage signals answers unlisted open' (unlisted ∘ known)
    | announced stage signals answers unlisted open' =>
      exact .announced stage signals answers unlisted open' (unlisted ∘ known)
    | known stage signals answers open' => exact .known stage signals answers open'
    | announcedEnding stage signals answers unlisted open' =>
      exact .announcedEnding stage signals answers unlisted open' (unlisted ∘ known)
    | ending stage signals answers open' => exact .ending stage signals answers open'
    | acknowledging stage signals answers only unlisted open' =>
      exact .acknowledging stage signals answers only unlisted open' (unlisted ∘ known)
    | acknowledged stage signals answers unlisted done =>
      exact .acknowledged stage signals answers unlisted done (unlisted ∘ known)
  | notify picked =>
    have more : ∀ answers : List Answer, (∀ answer ∈ answers, answer = .notice) →
        ∀ answer ∈ answers ++ [.notice], answer = .notice := by
      simp only [List.mem_append, List.mem_singleton]
      exact fun answers only answer listed => listed.elim (only answer) id
    cases sound with
    | known stage signals answers open' => exact .known stage signals (more _ answers) open'
    | ending stage signals answers open' => exact .ending stage signals (more _ answers) open'
    | outside _ _ _ _ _ idle | announced _ _ _ _ _ idle | announcedEnding _ _ _ _ _ idle
    | acknowledging _ _ _ _ _ _ idle | acknowledged _ _ _ _ _ idle => exact absurd picked idle
  | read head =>
    cases sound with
    | known stage signals answers open' =>
      exact .known stage signals (List.forall_mem_cons.1 (head ▸ answers)).2 open'
    | ending stage signals answers open' =>
      exact .ending stage signals (List.forall_mem_cons.1 (head ▸ answers)).2 open'
    | @acknowledging notices stage signals answers only unlisted open' idle =>
      rw [head] at answers
      cases notices with
      | nil => cases answers
      | cons first rest =>
        exact .acknowledging stage signals (List.cons.inj answers).2
          (List.forall_mem_cons.1 only).2 unlisted open' idle
    | outside _ _ answers | announced _ _ answers | announcedEnding _ _ answers
    | acknowledged _ _ answers => cases head.symm.trans answers
  | acknowledge head =>
    cases sound with
    | known _ _ answers | ending _ _ answers =>
      cases (List.forall_mem_cons.1 (head ▸ answers)).1
    | @acknowledging notices stage signals answers only unlisted _ idle =>
      rw [head] at answers
      cases notices with
      | nil => exact .acknowledged stage signals (List.cons.inj answers).2 unlisted trivial idle
      | cons first rest =>
        rw [(List.forall_mem_cons.1 only).1] at answers
        cases answers
    | outside _ _ answers | announced _ _ answers | announcedEnding _ _ answers
    | acknowledged _ _ answers => cases head.symm.trans answers

structure Forgotten (s s' : Pair) : Prop where
  stage : s'.stage = s.stage
  signals : s.signals = .withdraw :: s'.signals
  answers : s'.answers = s.answers ++ [.acknowledge]
  unlisted : ¬s'.listed
  acknowledged : s'.acknowledged = s.acknowledged
  notifying : s'.notifying = s.notifying

theorem Forgotten.step (forgotten : Forgotten s s') (idle : ¬s.notifying) : Step s s' :=
  (Step.forget forgotten.signals idle).to forgotten.stage rfl forgotten.answers
    (eq_false forgotten.unlisted) forgotten.acknowledged forgotten.notifying

/-- The pair without its notices. What becomes of them leaves no trace in the rest, so the rest is
sound even if a withdrawal may be heard at any time. -/
def Pair.mute (s : Pair) : Pair :=
  { s with answers := s.answers.filter (· = .acknowledge), notifying := False }

theorem Forgotten.mute (forgotten : Forgotten s s') : Forgotten s.mute s'.mute := by
  refine ⟨forgotten.stage, forgotten.signals, ?_, forgotten.unlisted, forgotten.acknowledged, rfl⟩
  simp [Pair.mute, forgotten.answers]

theorem Step.mute (step : Step s s') : s'.mute = s.mute ∨ Step s.mute s'.mute := by
  cases step with
  | announce before => exact .inr (.announce before)
  | withdraw before => exact .inr (.withdraw before)
  | finish before done => exact .inr (.finish before done)
  | hear head => exact .inr (.hear head)
  | forget head =>
    have forgotten : Forgotten s { s with
        signals := _, listed := False, answers := s.answers ++ [.acknowledge] } :=
      ⟨rfl, head, rfl, id, rfl, rfl⟩
    exact .inr (forgotten.mute.step id)
  | unlist less => exact .inr (.unlist less)
  | pick => exact .inl rfl
  | notify => exact .inl (by simp [Pair.mute])
  | read head => exact .inl (by simp [Pair.mute, head])
  | @acknowledge rest head =>
    have headed : s.mute.answers = .acknowledge :: rest.filter (· = .acknowledge) := by
      simp only [Pair.mute, head]
      exact List.filter_cons_of_pos (by decide)
    exact .inr (.acknowledge headed)

theorem Sound.mute_step (sound : Sound s.mute) (step : Step s s') : Sound s'.mute := by
  rcases step.mute with same | step
  · rwa [same]
  · exact sound.step step

theorem Sound.mute_forgotten (sound : Sound s.mute) (forgotten : Forgotten s s') :
    Sound s'.mute :=
  sound.step (forgotten.mute.step id)

/-- A client that is outside has nothing under way, and is on no list. -/
theorem Sound.settled (sound : Sound s) (outside : s.stage = .outside) :
    s.signals = [] ∧ s.answers = [] ∧ ¬s.listed := by
  cases sound with
  | outside _ signals answers unlisted => exact ⟨signals, answers, unlisted⟩
  | announced stage | known stage | announcedEnding stage | ending stage | acknowledging stage
  | acknowledged stage => cases outside.symm.trans stage

/-- A client that is closing, with nothing on its way to or from it, has been acknowledged. -/
theorem Sound.answered (sound : Sound s) (closing : s.stage = .closing) (signals : s.signals = [])
    (answers : s.answers = []) : s.acknowledged := by
  cases sound with
  | outside stage | announced stage | known stage => cases stage.symm.trans closing
  | announcedEnding _ waiting | ending _ waiting => cases waiting.symm.trans signals
  | acknowledging _ _ sent =>
    rw [sent] at answers
    exact absurd answers (List.append_ne_nil_of_right_ne_nil _ (List.cons_ne_nil _ _))
  | acknowledged _ _ _ _ done => exact done

theorem Sound.silent (sound : Sound s) (done : s.acknowledged) : s.answers = [] := by
  cases sound with
  | acknowledged _ _ answers => exact answers
  | outside _ _ _ _ open' | announced _ _ _ _ open' | known _ _ _ open'
  | announcedEnding _ _ _ _ open' | ending _ _ _ open' | acknowledging _ _ _ _ _ open' =>
    exact absurd done open'

theorem Sound.acknowledging' (sound : Sound s) (answer : Answer.acknowledge ∈ s.answers) :
    s.stage = .closing ∧ s.signals = [] ∧ s.answers.count .acknowledge = 1 ∧ ¬s.acknowledged := by
  cases sound with
  | outside _ _ answers | announced _ _ answers | announcedEnding _ _ answers
  | acknowledged _ _ answers =>
    rw [answers] at answer
    cases answer
  | known _ _ answers | ending _ _ answers => cases answers _ answer
  | acknowledging stage signals answers only _ open' =>
    refine ⟨stage, signals, ?_, open'⟩
    have notice : Answer.acknowledge ∉ _ := fun member => Answer.noConfusion (only _ member)
    rw [answers, List.count_append, List.count_eq_zero.2 notice]
    rfl

end DistributedMonitor.Library.Registration
