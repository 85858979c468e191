import Mathlib.Data.Fintype.Card
import Mathlib.Logic.Relation

/-! Who waits for whom, as a relation. Among finitely many, either somebody waits for himself
through others, or every chain ends at somebody who waits for nobody. -/

namespace DistributedMonitor.Library
open Relation

variable {Process : Type*} {waits waits' : Process → Process → Prop}

def Closed (waits : Process → Process → Prop) : Prop := ∃ p, TransGen waits p p

theorem exists_end [Finite Process] (opened : ¬Closed waits) (p : Process) :
    ∃ q, ReflTransGen waits p q ∧ ∀ r, ¬waits q r := by
  have trans : IsTrans Process (Function.swap (TransGen waits)) :=
    ⟨fun a b c later earlier => earlier.trans later⟩
  have irrefl : Std.Irrefl (Function.swap (TransGen waits)) :=
    ⟨fun q ring => opened ⟨q, ring⟩⟩
  have ends := Finite.wellFounded_of_trans_of_irrefl (Function.swap (TransGen waits))
  induction p using ends.induction with
  | h p ih =>
    by_cases last : ∃ r, waits p r
    · obtain ⟨r, next⟩ := last
      obtain ⟨q, chain, final⟩ := ih r (.single next)
      exact ⟨q, .head next chain, final⟩
    · exact ⟨p, .refl, fun r next => last ⟨r, next⟩⟩

/-- Nobody leaves a ring, if nobody stops waiting for one who waits. -/
theorem Closed.kept (closed : Closed waits)
    (stays : ∀ p q r, waits p q → waits q r → waits' p q) : Closed waits' := by
  have along : ∀ p q r, TransGen waits p q → waits q r → TransGen waits' p q := by
    intro p q r chain next
    induction chain generalizing r with
    | single first => exact .single (stays _ _ _ first next)
    | tail earlier last ih => exact (ih _ last).tail (stays _ _ _ last next)
  obtain ⟨p, ring⟩ := closed
  obtain ⟨q, first, -⟩ := TransGen.head'_iff.1 ring
  exact ⟨p, along p p q ring first⟩

end DistributedMonitor.Library
