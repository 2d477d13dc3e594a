import Mathlib.Data.List.Basic
/-!
# Texts with marked spans

A text as the spans it is made of, each shown or secret. Filling the
secret spans anew gives the texts an observer of the shown ones cannot
tell apart; `before` is what every one of them starts with and `blanked`
what is left of them when the secrets are blank, which is the shortest of
them and the only one of its length.
-/

namespace ZeroTouch

/-- A piece of a text. -/
inductive Span (α : Type*)
  | shown (text : List α)
  | secret (text : List α)

namespace Span

variable {α : Type*}

/-- What the span contributes to the text. -/
def text : Span α → List α
  | .shown t => t
  | .secret t => t

/-- Whether the span is secret. -/
def isSecret : Span α → Bool
  | .shown _ => false
  | .secret _ => true

/-- Put `c` in the place of a secret. -/
def fill (c : List α) : Span α → Span α
  | .shown t => .shown t
  | .secret _ => .secret c

/-- The whole text. -/
def flat (ss : List (Span α)) : List α := ss.flatMap text

/-- The text with every secret blank. -/
def blanked (ss : List (Span α)) : List α := flat (ss.map (fill []))

/-- The text before the first secret. -/
def before : List (Span α) → List α
  | [] => []
  | .shown t :: ss => t ++ before ss
  | .secret _ :: _ => []

@[simp] theorem flat_nil : flat ([] : List (Span α)) = [] := rfl

@[simp] theorem flat_cons (s : Span α) (ss : List (Span α)) :
    flat (s :: ss) = s.text ++ flat ss := rfl

@[simp] theorem flat_append (ss ts : List (Span α)) : flat (ss ++ ts) = flat ss ++ flat ts :=
  List.flatMap_append

@[simp] theorem text_shown (t : List α) : (shown t).text = t := rfl

@[simp] theorem text_secret (t : List α) : (secret t).text = t := rfl

@[simp] theorem isSecret_shown (t : List α) : (shown t).isSecret = false := rfl

@[simp] theorem isSecret_secret (t : List α) : (secret t).isSecret = true := rfl

@[simp] theorem isSecret_fill (c : List α) (s : Span α) : (s.fill c).isSecret = s.isSecret := by
  cases s <;> rfl

@[simp] theorem fill_shown (c t : List α) : (shown t).fill c = shown t := rfl

@[simp] theorem fill_secret (c t : List α) : (secret t).fill c = secret c := rfl

@[simp] theorem fill_fill (c d : List α) (s : Span α) : (s.fill d).fill c = s.fill c := by
  cases s <;> rfl

/-- Filling leaves a text with no secret alone. -/
theorem map_fill_of_shown {ss : List (Span α)} (h : ∀ s ∈ ss, s.isSecret = false) (c : List α) :
    ss.map (fill c) = ss := by
  induction ss with
  | nil => rfl
  | cons s ss ih =>
    have hs := h s (by simp)
    have ht := ih fun t ht => h t (by simp [ht])
    cases s with
    | shown t => simp [ht]
    | secret t => simp at hs

@[simp] theorem before_map_fill (c : List α) (ss : List (Span α)) :
    before (ss.map (fill c)) = before ss := by
  induction ss with
  | nil => rfl
  | cons s ss ih => cases s <;> simp [before, ih]

/-- Every filling starts with what stands before the first secret. -/
theorem before_prefix_flat (ss : List (Span α)) : before ss <+: flat ss := by
  induction ss with
  | nil => exact List.nil_prefix
  | cons s ss ih =>
    cases s with
    | shown t => simpa [before] using (List.prefix_append_right_inj t).2 ih
    | secret t => exact List.nil_prefix

/-- Right after it the first secret follows, whatever it is filled with. -/
theorem before_append_fill_prefix {ss : List (Span α)} (h : ∃ s ∈ ss, s.isSecret) (c : List α) :
    before ss ++ c <+: flat (ss.map (fill c)) := by
  induction ss with
  | nil => simp at h
  | cons s ss ih =>
    cases s with
    | shown t =>
      have h' : ∃ s ∈ ss, s.isSecret := by simpa using h
      simpa [before] using (List.prefix_append_right_inj t).2 (ih h')
    | secret t => simp [before]

/-- The blanked text is the shortest. -/
theorem length_blanked_le (ss : List (Span α)) : (blanked ss).length ≤ (flat ss).length := by
  induction ss with
  | nil => exact Nat.le_refl _
  | cons s ss ih =>
    cases s <;> simp only [blanked, List.map_cons, fill_shown, fill_secret, flat_cons, text_shown,
      text_secret, List.length_append, List.length_nil] at ih ⊢ <;> omega

/-- And the only one of its length. -/
theorem flat_eq_blanked {ss : List (Span α)} (h : (flat ss).length ≤ (blanked ss).length) :
    flat ss = blanked ss := by
  induction ss with
  | nil => rfl
  | cons s ss ih =>
    have hle := length_blanked_le ss
    cases s with
    | shown t =>
      simp only [blanked, List.map_cons, fill_shown, flat_cons, text_shown,
        List.length_append] at h hle ih ⊢
      rw [ih (by omega)]
    | secret t =>
      simp only [blanked, List.map_cons, fill_secret, flat_cons, text_secret,
        List.length_append, List.length_nil] at h hle ih ⊢
      have ht : t = [] := List.eq_nil_of_length_eq_zero (by omega)
      rw [ht, ih (by omega)]

end Span

end ZeroTouch
