import Mathlib.Data.List.DropRight
import Mathlib.Data.List.Infix
import Mathlib.Data.List.TakeWhile
/-!
# Text

`std::string` as the program uses it: a finite sequence of characters,
compared, cut and concatenated, never indexed past its end. A character
stands for one byte, and case is the C locale's, which folds the ASCII
letters and leaves everything else alone.
-/

namespace ZeroTouch

/-- A `std::string`. -/
abbrev Text : Type := List Char

/-- The loop of `split_csv`, with `cur` the entry being read. Blanks are
dropped and so are empty entries. -/
def splitCsvGo : Text → Text → List Text
  | [], cur => if cur.isEmpty then [] else [cur]
  | ch :: s, cur =>
    if ch = ',' then (if cur.isEmpty then [] else [cur]) ++ splitCsvGo s []
    else if ch ≠ ' ' ∧ ch ≠ '\t' then splitCsvGo s (cur ++ [ch])
    else splitCsvGo s cur

/-- `split_csv`. -/
def splitCsv (s : Text) : List Text := splitCsvGo s []

/-- A run up to the first character that is not of its kind. -/
theorem takeWhile_append_stop {p : Char → Bool} {ds rest : Text} (hds : ∀ c ∈ ds, p c = true)
    (hrest : ∀ c ∈ rest.head?, p c = false) : (ds ++ rest).takeWhile p = ds := by
  rw [List.takeWhile_append_of_pos hds]
  cases rest with
  | nil => simp
  | cons c rest => simp [hrest c rfl]

theorem dropWhile_append_stop {p : Char → Bool} {ds rest : Text} (hds : ∀ c ∈ ds, p c = true)
    (hrest : ∀ c ∈ rest.head?, p c = false) : (ds ++ rest).dropWhile p = rest := by
  rw [List.dropWhile_append_of_pos hds]
  cases rest with
  | nil => rfl
  | cons c rest => simp [hrest c rfl]

/-- **What is left of a text once it is stripped**: it stands between what
was dropped, and neither end of it could have been. -/
theorem strip_eq_iff {p q : Char → Bool} {t f : Text} :
    (t.dropWhile p).rdropWhile q = f ↔
      ∃ before after, t = before ++ f ++ after ∧ (∀ c ∈ before, p c = true) ∧
        (∀ c ∈ after, q c = true) ∧ (∀ c ∈ f.head?, p c = false) ∧
        ∀ c ∈ f.getLast?, q c = false := by
  constructor
  · rintro rfl
    refine ⟨t.takeWhile p, (t.dropWhile p).rtakeWhile q, ?_, fun c hc => List.mem_takeWhile_imp hc,
      fun c hc => List.mem_rtakeWhile_imp hc, fun c hc => ?_, fun c hc => ?_⟩
    · rw [List.append_assoc, List.rdropWhile_append_rtakeWhile, List.takeWhile_append_dropWhile]
    · obtain ⟨s, hs⟩ := List.rdropWhile_prefix q (t.dropWhile p)
      have hhead : (t.dropWhile p).head? = some c := by
        rw [← hs, List.head?_append]
        exact Option.or_eq_some_iff.2 (.inl hc)
      have hstop := List.head?_dropWhile_not p t
      rwa [hhead] at hstop
    · obtain ⟨hne, rfl⟩ := List.mem_getLast?_eq_getLast hc
      exact Bool.not_eq_true _ ▸ List.rdropWhile_last_not q (t.dropWhile p) hne
  · rintro ⟨before, after, rfl, hbefore, hafter, hhead, hlast⟩
    rw [List.append_assoc]
    rcases eq_or_ne f [] with rfl | hne
    · -- nothing is left, however the two runs meet
      rw [List.nil_append, List.dropWhile_append_of_pos hbefore, List.rdropWhile_eq_nil_iff]
      exact fun c hc => hafter c ((List.dropWhile_suffix p).subset hc)
    · have hfront : ∀ c ∈ (f ++ after).head?, p c = false := by
        intro c hc
        rw [List.head?_append_of_ne_nil _ hne] at hc
        exact hhead c hc
      have hback : ∀ c ∈ f.reverse.head?, q c = false := by
        intro c hc
        rw [List.head?_reverse] at hc
        exact hlast c hc
      rw [dropWhile_append_stop hbefore hfront, List.rdropWhile, List.reverse_append,
        dropWhile_append_stop (fun c hc => hafter c (List.mem_reverse.1 hc)) hback,
        List.reverse_reverse]

namespace Text

/-- `std::tolower` over a whole string. -/
def lower (t : Text) : Text := t.map Char.toLower

/-- `t.find(sub) != npos`. -/
def contains (t sub : Text) : Bool := decide (sub <:+: t)

/-- `t.rfind(pre, 0) == 0`. -/
def startsWith (t pre : Text) : Bool := pre.isPrefixOf t

/-- `std::to_string`. -/
def ofInt (n : Int) : Text := (toString n).toList

/-! ## Case -/

theorem toLower_toLower (c : Char) : c.toLower.toLower = c.toLower := by
  unfold Char.toLower
  split
  · split
    · next h1 h2 =>
      simp only [ge_iff_le, UInt32.le_iff_toNat_le, UInt32.toNat_add, seval] at h1 h2
      omega
    · rfl
  · rfl

/-- What occurs in a lowercased text is in lowercase. -/
theorem lower_eq_of_infix {t sub : Text} (h : sub <:+: t.lower) : sub.lower = sub := by
  have hmap : sub.map Char.toLower = sub.map id := by
    refine List.map_congr_left fun c hc => ?_
    obtain ⟨c', -, rfl⟩ := List.mem_map.1 (h.subset hc)
    exact toLower_toLower c'
  rw [lower, hmap, List.map_id]

/-! ## Order -/

/-- `std::map`'s order of its keys is the strings', character by character. -/
theorem compare_eq_lt_iff {a b : Text} : compare a b = .lt ↔ a < b := by
  induction a generalizing b with
  | nil =>
    cases b with
    | nil => simp
    | cons d b => simp [List.compare_nil_cons]
  | cons c a ih =>
    cases b with
    | nil => simp [List.compare_cons_nil]
    | cons d b =>
      have hchar : compare c d = .lt ↔ c < d := compareOfLessAndEq_eq_lt
      rw [List.compare_cons_cons, Ordering.then_eq_lt, List.cons_lt_cons_iff, ih, hchar,
        Std.LawfulEqCmp.compare_eq_iff_eq]

/-! ## Segments between separators -/

/-- No segment holds the separator. -/
theorem not_mem_of_mem_splitOn {t seg : Text} {sep : Char} (h : seg ∈ t.splitOn sep) :
    sep ∉ seg := by
  induction t generalizing seg with
  | nil =>
    rw [List.splitOn_nil, List.mem_singleton] at h
    simp [h]
  | cons c t ih =>
    rw [List.splitOn_cons_eq_if_modifyHead] at h
    split at h
    · rcases List.mem_cons.1 h with rfl | h
      · simp
      · exact ih h
    · rename_i hc
      have hne : sep ≠ c := fun heq => hc (by simp [heq])
      obtain ⟨y, ys, hy⟩ := List.exists_cons_of_ne_nil (List.splitOn_ne_nil sep t)
      rw [hy] at h ih
      rcases List.mem_cons.1 h with rfl | h
      · have hmem : sep ∉ y := ih (List.mem_cons_self ..)
        simp [hmem, hne]
      · exact ih (List.mem_cons_of_mem y h)

/-- Texts without the separator, each behind one, are the segments between
them, after an empty one. -/
theorem splitOn_flatMap_cons {sep : Char} {segs : List Text} (h : ∀ seg ∈ segs, sep ∉ seg) :
    (segs.flatMap (sep :: ·)).splitOn sep = [] :: segs := by
  simp only [List.splitOn_eq_splitOnP]
  induction segs with
  | nil => simp
  | cons seg segs ih =>
    have hseg : ∀ c ∈ seg, (c == sep) = false := by
      intro c hc
      have hsep : sep ∉ seg := h seg (by simp)
      simp only [beq_eq_false_iff_ne]
      rintro rfl
      exact hsep hc
    have ih := ih fun t ht => h t (List.mem_cons_of_mem _ ht)
    rw [List.flatMap_cons, List.cons_append, List.splitOnP_cons_eq_if_modifyHead, if_pos (by simp)]
    congr 1
    cases segs with
    | nil => simp [List.splitOnP_eq_singleton hseg]
    | cons t ts =>
      -- what follows the segment opens with the separator, which ends it
      rw [List.flatMap_cons, List.cons_append] at ih ⊢
      rw [List.splitOnP_append_cons_of_forall_mem hseg _ (by simp)]
      rw [List.splitOnP_cons_eq_if_modifyHead, if_pos (by simp)] at ih
      rw [(List.cons.inj ih).2]

end Text

end ZeroTouch
