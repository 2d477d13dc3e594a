import Mathlib.Data.List.Induction
/-!
# One part of what a fold builds

A fold over records, seen through one part of the state. Where each record
either leaves the part alone or brings a value for it, the part is a fold
over the values alone; and where a value replaces what was there, it is
the last value.
-/

namespace ZeroTouch

variable {σ α β γ : Type*}

/-- **A part of a fold** is a fold over the values brought for it. -/
theorem foldl_part (part : σ → β) (put : β → γ → β) {brings : α → Option γ} {step : σ → α → σ}
    (h : ∀ s a, part (step s a) = ((brings a).map (put (part s))).getD (part s)) (l : List α)
    (s : σ) : part (l.foldl step s) = (l.filterMap brings).foldl put (part s) := by
  induction l generalizing s with
  | nil => rfl
  | cons a l ih =>
    rw [List.foldl_cons, ih, h]
    cases hb : brings a with
    | none => rw [List.filterMap_cons_none hb]; rfl
    | some v => rw [List.filterMap_cons_some hb, List.foldl_cons]; rfl

/-- Where every value replaces what was there, the last one stays. -/
theorem foldl_replace (f : γ → β) (l : List γ) (b : β) :
    l.foldl (fun _ v => f v) b = (l.getLast?.map f).getD b := by
  induction l using List.reverseRecOn with
  | nil => rfl
  | append_singleton l v ih => simp

end ZeroTouch
