import ZeroTouch.Common.Text
/-!
# Decimal integers at the front of a text

What `std::stoi` and `std::stol` read: white space, a sign or none, and
the digits that follow, with whatever comes after them passed over.
`Denotes` says it of the text; `leadingInt` computes it.
-/

namespace ZeroTouch

/-- `std::isspace` in the C locale. -/
def isSpace (c : Char) : Bool :=
  c = ' ' || c = '\t' || c = '\n' || c = '\r' || c = '\x0b' || c = '\x0c'

/-- The value of a run of decimal digits. -/
def digitsValue (ds : Text) : ℕ := ds.foldl (fun n c => 10 * n + (c.toNat - '0'.toNat)) 0

/-- **The text opens with the decimal integer `n`**, whatever follows its
last digit. -/
def Denotes (t : Text) (n : Int) : Prop :=
  ∃ space sign ds rest : Text, t = space ++ sign ++ ds ++ rest ∧
    (∀ c ∈ space, isSpace c = true) ∧ (sign = [] ∨ sign = ['+'] ∨ sign = ['-']) ∧
    ds ≠ [] ∧ (∀ c ∈ ds, c.isDigit = true) ∧ (∀ c ∈ rest.head?, c.isDigit = false) ∧
    n = if sign = ['-'] then -(digitsValue ds : Int) else digitsValue ds

/-- The integer a text opens with, if it opens with one. -/
def leadingInt (t : Text) : Option Int :=
  let t := t.dropWhile isSpace
  let body := if t.head? = some '-' ∨ t.head? = some '+' then t.tail else t
  let ds := body.takeWhile Char.isDigit
  if ds.isEmpty then none
  else some (if t.head? = some '-' then -(digitsValue ds : Int) else digitsValue ds)

/-- `std::stol`, with a `long` of 64 bits: nothing where there is no
integer or it does not fit. -/
def stol (t : Text) : Option Int :=
  (leadingInt t).filter fun v => -9223372036854775808 ≤ v ∧ v ≤ 9223372036854775807

/-! ## What is read -/

theorem isSpace_of_isDigit {c : Char} (h : c.isDigit = true) : isSpace c = false := by
  simp only [Char.isDigit, Bool.and_eq_true, decide_eq_true_eq] at h
  unfold isSpace
  by_contra hs
  simp only [Bool.not_eq_false, Bool.or_eq_true, decide_eq_true_eq] at hs
  rcases hs with ((((rfl | rfl) | rfl) | rfl) | rfl) | rfl <;> revert h <;> decide

theorem leadingInt_of_denotes {t : Text} {n : Int} (h : Denotes t n) : leadingInt t = some n := by
  obtain ⟨space, sign, ds, rest, rfl, hspace, hsign, hne, hds, hrest, rfl⟩ := h
  obtain ⟨d, ds', rfl⟩ := List.exists_cons_of_ne_nil hne
  have hd : d.isDigit = true := hds d (by simp)
  have hbody : ((d :: ds') ++ rest).takeWhile Char.isDigit = d :: ds' :=
    takeWhile_append_stop hds hrest
  have hdrop : (space ++ sign ++ (d :: ds') ++ rest).dropWhile isSpace =
      sign ++ ((d :: ds') ++ rest) := by
    rw [List.append_assoc, List.append_assoc]
    refine dropWhile_append_stop hspace fun c hc => ?_
    rcases hsign with rfl | rfl | rfl
    · obtain rfl : d = c := by simpa using hc
      exact isSpace_of_isDigit hd
    · obtain rfl : '+' = c := by simpa using hc
      decide
    · obtain rfl : '-' = c := by simpa using hc
      decide
  unfold leadingInt
  rw [hdrop]
  rcases hsign with rfl | rfl | rfl
  · -- a digit is not a sign
    have hminus : d ≠ '-' := by
      rintro rfl
      exact absurd hd (by decide)
    have hplus : d ≠ '+' := by
      rintro rfl
      exact absurd hd (by decide)
    simp only [List.nil_append, List.cons_append, List.head?_cons, Option.some.injEq, hminus, hplus,
      or_self, if_false] at hbody ⊢
    simp [hbody]
  · simp only [List.cons_append, List.nil_append] at hbody ⊢
    simp [hbody]
  · simp only [List.cons_append, List.nil_append] at hbody ⊢
    simp [hbody]

theorem denotes_of_leadingInt {t : Text} {n : Int} (h : leadingInt t = some n) : Denotes t n := by
  obtain ⟨sign, body, hsign, hsplit, hbody, hminus⟩ : ∃ sign body : Text,
      (sign = [] ∨ sign = ['+'] ∨ sign = ['-']) ∧ t.dropWhile isSpace = sign ++ body ∧
      (if (t.dropWhile isSpace).head? = some '-' ∨ (t.dropWhile isSpace).head? = some '+'
        then (t.dropWhile isSpace).tail else t.dropWhile isSpace) = body ∧
      ((t.dropWhile isSpace).head? = some '-' ↔ sign = ['-']) := by
    rcases t.dropWhile isSpace with _ | ⟨c, t'⟩
    · exact ⟨[], [], .inl rfl, rfl, rfl, by simp⟩
    · by_cases hm : c = '-'
      · subst hm
        exact ⟨['-'], t', .inr (.inr rfl), rfl, by simp, by simp⟩
      · by_cases hp : c = '+'
        · subst hp
          exact ⟨['+'], t', .inr (.inl rfl), rfl, by simp, by simp⟩
        · exact ⟨[], c :: t', .inl rfl, rfl, by simp [hm, hp], by simp [hm]⟩
  have hread : (if (body.takeWhile Char.isDigit).isEmpty then none
      else some (if sign = ['-'] then -(digitsValue (body.takeWhile Char.isDigit) : Int)
        else digitsValue (body.takeWhile Char.isDigit))) = some n := by
    simp only [← hminus, ← hbody]
    exact h
  split at hread
  · cases hread
  · next hne =>
    refine ⟨t.takeWhile isSpace, sign, body.takeWhile Char.isDigit, body.dropWhile Char.isDigit, ?_,
      fun c hc => List.mem_takeWhile_imp hc, hsign, by simpa only [List.isEmpty_iff] using hne,
      fun c hc => List.mem_takeWhile_imp hc, fun c hc => ?_, (Option.some.inj hread).symm⟩
    · rw [List.append_assoc, List.takeWhile_append_dropWhile, List.append_assoc, ← hsplit,
        List.takeWhile_append_dropWhile]
    · have hstop := List.head?_dropWhile_not Char.isDigit body
      rw [Option.mem_def.1 hc] at hstop
      exact hstop

/-- **What is computed is what the text says.** -/
theorem leadingInt_eq_some_iff {t : Text} {n : Int} : leadingInt t = some n ↔ Denotes t n :=
  ⟨denotes_of_leadingInt, leadingInt_of_denotes⟩

theorem stol_eq_some_iff {t : Text} {n : Int} :
    stol t = some n ↔ Denotes t n ∧ -9223372036854775808 ≤ n ∧ n ≤ 9223372036854775807 := by
  rw [stol, Option.filter_eq_some_iff, leadingInt_eq_some_iff, decide_eq_true_eq]

end ZeroTouch
