import Mathlib.Logic.Basic
/-!
# Two runs of one computation

A computation over a state respects a relation when, run on two related
states, it answers the same and leaves related states. What respects a
relation composes, so the steps of a program are checked one by one, and
a list of answers is the same in two runs when each step of the run
respects the relation.
-/

namespace ZeroTouch

variable {σ α β : Type} {R : σ → σ → Prop}

/-- Related states get the same answer, and stay related. -/
def Respects (R : σ → σ → Prop) (x : StateM σ α) : Prop :=
  ∀ s s', R s s' → (x s).1 = (x s').1 ∧ R (x s).2 (x s').2

namespace Respects

theorem pure (a : α) : Respects R (Pure.pure a : StateM σ α) := fun _ _ h => ⟨rfl, h⟩

/-- What follows may depend on the answer, since both runs got the same. -/
theorem bind {x : StateM σ α} {f : α → StateM σ β} (hx : Respects R x)
    (hf : ∀ a, Respects R (f a)) : Respects R (x >>= f) := by
  intro s s' h
  obtain ⟨ha, hs⟩ := hx s s' h
  have := hf (x s).1 (x s).2 (x s').2 hs
  rwa [show (x >>= f) s' = f (x s).1 (x s').2 by rw [ha]; rfl]

end Respects

end ZeroTouch
