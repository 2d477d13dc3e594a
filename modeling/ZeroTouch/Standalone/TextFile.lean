import ZeroTouch.Common.Text
/-!
# The files of the standalone daemon

`parse_config` and `UserStore::parse` read their files the same way: line
by line, each stripped of its comment and trimmed, and cut at the first of
a separator.
-/

namespace ZeroTouch

/-- The lines `std::getline` reads, `cur` being the one it is in. What
follows the last newline is a line only if there is something. -/
def getlinesGo : Text → Text → List Text
  | [], cur => if cur.isEmpty then [] else [cur]
  | c :: t, cur => if c = '\n' then cur :: getlinesGo t [] else getlinesGo t (cur ++ [c])

/-- `while (std::getline(ss, line))`. -/
def getlines (t : Text) : List Text := getlinesGo t []

/-- `if (h = line.find('#')) line.erase(h)`. -/
def stripComment (line : Text) : Text := line.takeWhile (· ≠ '#')

/-- The blanks of `trim`. -/
def isBlank (c : Char) : Bool := c = ' ' || c = '\t' || c = '\r' || c = '\n'

/-- `trim`: from the first character that is not blank to the last. -/
def trim (s : Text) : Text := (s.dropWhile isBlank).rdropWhile isBlank

/-- What the parsers look at of a line. -/
def cleanLine (raw : Text) : Text := trim (stripComment raw)

/-- `find(sep)` and the `substr`s on its two sides. -/
def cut (sep : Char) : Text → Option (Text × Text)
  | [] => none
  | c :: t => if c = sep then some ([], t) else (cut sep t).map fun p => (c :: p.1, p.2)

/-- A cut is at the first of the separator. -/
theorem cut_eq_some_iff {sep : Char} {t a b : Text} :
    cut sep t = some (a, b) ↔ t = a ++ sep :: b ∧ sep ∉ a := by
  induction t generalizing a with
  | nil => simp [cut]
  | cons c t ih =>
    rw [cut]
    split
    · next hc =>
      subst hc
      constructor
      · rintro ⟨⟩
        exact ⟨rfl, by simp⟩
      · rintro ⟨heq, hsep⟩
        cases a with
        | nil => rw [(List.cons.inj heq).2]
        | cons d a => exact absurd (List.cons.inj heq).1 fun h => hsep (by simp [h])
    · next hc =>
      cases a with
      | nil => simp [hc]
      | cons d a =>
        simp only [Option.map_eq_some_iff, Prod.mk.injEq, List.cons.injEq, List.cons_append,
          List.mem_cons, not_or]
        constructor
        · rintro ⟨⟨a', b'⟩, hcut, ⟨rfl, rfl⟩, rfl⟩
          obtain ⟨rfl, hsep⟩ := ih.1 hcut
          exact ⟨⟨rfl, rfl⟩, Ne.symm hc, hsep⟩
        · rintro ⟨⟨rfl, rfl⟩, -, hsep⟩
          exact ⟨(a, b), ih.2 ⟨rfl, hsep⟩, ⟨rfl, rfl⟩, rfl⟩

/-! ## Lines -/

theorem getlinesGo_append {line : Text} (h : '\n' ∉ line) (t cur : Text) :
    getlinesGo (line ++ '\n' :: t) cur = (cur ++ line) :: getlinesGo t [] := by
  induction line generalizing cur with
  | nil => simp [getlinesGo]
  | cons c line ih =>
    obtain ⟨hc, hline⟩ := not_or.1 (List.mem_cons.not.1 h)
    rw [List.cons_append, getlinesGo, if_neg (Ne.symm hc), ih hline, List.append_assoc]
    rfl

/-- **Lines, each closed by a newline, are the lines that are read.** -/
theorem getlines_flatMap {lines : List Text} (h : ∀ line ∈ lines, '\n' ∉ line) :
    getlines (lines.flatMap (· ++ ['\n'])) = lines := by
  induction lines with
  | nil => rfl
  | cons line lines ih =>
    rw [List.flatMap_cons, List.append_assoc, getlines, List.singleton_append,
      getlinesGo_append (h line (List.mem_cons_self ..)), List.nil_append]
    exact congrArg _ (ih fun l hl => h l (List.mem_cons_of_mem _ hl))

theorem not_mem_of_mem_getlinesGo {t cur line : Text} (hcur : '\n' ∉ cur)
    (h : line ∈ getlinesGo t cur) : '\n' ∉ line := by
  induction t generalizing cur with
  | nil =>
    rw [getlinesGo] at h
    split at h
    · simp at h
    · rwa [List.mem_singleton.1 h]
  | cons c t ih =>
    rw [getlinesGo] at h
    split at h
    · rcases List.mem_cons.1 h with rfl | h
      · exact hcur
      · exact ih List.not_mem_nil h
    · next hc => exact ih (by simp [hcur, Ne.symm hc]) h

/-- No line holds a newline. -/
theorem not_mem_of_mem_getlines {t line : Text} (h : line ∈ getlines t) : '\n' ∉ line :=
  not_mem_of_mem_getlinesGo List.not_mem_nil h

/-! ## Trimmed texts -/

theorem trim_isInfix (s : Text) : trim s <:+: s :=
  (List.rdropWhile_prefix ..).isInfix.trans (List.dropWhile_suffix _).isInfix

/-- What a trimmed text ends in is not blank. -/
theorem getLast?_trim {s : Text} {c : Char} (h : c ∈ (trim s).getLast?) : isBlank c = false := by
  obtain ⟨-, -, -, -, -, -, hlast⟩ := strip_eq_iff.1 (rfl : trim s = trim s)
  exact hlast c h

/-- Nor is what it opens with. -/
theorem head?_trim {s : Text} {c : Char} (h : c ∈ (trim s).head?) : isBlank c = false := by
  obtain ⟨-, -, -, -, -, hhead, -⟩ := strip_eq_iff.1 (rfl : trim s = trim s)
  exact hhead c h

/-- A text with no blank at either end is left as it is. -/
theorem trim_eq_self {s : Text} (hhead : ∀ c ∈ s.head?, isBlank c = false)
    (hlast : ∀ c ∈ s.getLast?, isBlank c = false) : trim s = s :=
  strip_eq_iff.2 ⟨[], [], by simp, by simp, by simp, hhead, hlast⟩

theorem trim_trim (s : Text) : trim (trim s) = trim s :=
  trim_eq_self (fun _ => head?_trim) fun _ => getLast?_trim

/-- **A text the files can give as a value**: on one line, outside a
comment, with no blank at either end. -/
structure Clean (v : Text) : Prop where
  trimmed : trim v = v
  no_comment : '#' ∉ v
  one_line : '\n' ∉ v

theorem cleanLine_of_clean {line : Text} (h : Clean line) : cleanLine line = line := by
  have hstrip : stripComment line = line :=
    List.takeWhile_eq_self_iff.2 fun c hc => by
      have : c ≠ '#' := fun heq => h.no_comment (heq ▸ hc)
      simpa using this
  rw [cleanLine, hstrip, h.trimmed]

theorem clean_cleanLine {raw : Text} (h : '\n' ∉ raw) : Clean (cleanLine raw) where
  trimmed := trim_trim _
  no_comment hc := by
    have := List.mem_takeWhile_imp ((trim_isInfix _).subset hc)
    simp at this
  one_line hc := h ((List.takeWhile_prefix _).subset ((trim_isInfix _).subset hc))

/-- What is cut out of a clean line and trimmed is clean. -/
theorem Clean.trim_of_infix {line v : Text} (h : Clean line) (hv : v <:+: line) :
    Clean (trim v) where
  trimmed := trim_trim v
  no_comment hc := h.no_comment (hv.subset ((trim_isInfix v).subset hc))
  one_line hc := h.one_line (hv.subset ((trim_isInfix v).subset hc))

theorem Clean.head {v : Text} (h : Clean v) : ∀ c ∈ v.head?, isBlank c = false := by
  intro c hc
  rw [← h.trimmed] at hc
  exact head?_trim hc

theorem Clean.last {v : Text} (h : Clean v) : ∀ c ∈ v.getLast?, isBlank c = false := by
  intro c hc
  rw [← h.trimmed] at hc
  exact getLast?_trim hc

/-- Two clean texts around a separator, the first not empty, are a clean
line. -/
theorem Clean.append_sep {a b : Text} {sep : Char} (ha : Clean a) (hb : Clean b) (hne : a ≠ [])
    (hsep : isBlank sep = false) (hcomment : sep ≠ '#') : Clean (a ++ sep :: b) where
  trimmed := by
    refine trim_eq_self (fun c hc => ?_) fun c hc => ?_
    · rw [List.head?_append_of_ne_nil _ hne] at hc
      exact ha.head c hc
    · rw [List.getLast?_append_cons] at hc
      cases b with
      | nil =>
        obtain rfl : sep = c := by simpa using hc
        exact hsep
      | cons d b =>
        rw [List.getLast?_cons_cons] at hc
        exact hb.last c hc
  no_comment := by simp [ha.no_comment, hb.no_comment, Ne.symm hcomment]
  one_line := by
    have hnewline : '\n' ≠ sep := by
      rintro rfl
      exact absurd hsep (by decide)
    simp [ha.one_line, hb.one_line, hnewline]

end ZeroTouch
