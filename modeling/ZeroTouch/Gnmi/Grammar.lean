import Mathlib.Data.List.Infix
import ZeroTouch.Gnmi.Command
/-!
# The documented grammar

`gnmi_command.hpp` and `DESIGN.md` give the gnmi commands as

    IOT GNMI GET <xpath[,xpath...]>
    IOT GNMI SET <xpath[,xpath...]> <value[,value...]>

with as many values as xpaths, and an `IOT GNMI` message that is neither
is malformed. The parser asks for *at least* four and five tokens and
takes whatever stands between two commas. So it follows the grammar
exactly where a message has nothing after its arguments and no comma
without an xpath on either side of it (`conforms_iff`).
-/

namespace ZeroTouch

/-! ## The split at commas -/

theorem ieq_iff {a b : Text} : ieq a b = true ↔ Text.lower a = b := by
  induction a generalizing b with
  | nil => cases b <;> simp [ieq, Text.lower]
  | cons c a ih =>
    cases b with
    | nil => simp [ieq, Text.lower]
    | cons d b =>
      have := ih (b := b)
      simp only [ieq, Text.lower, Bool.and_eq_true, beq_iff_eq] at this
      simp only [ieq, Text.lower, List.length_cons, List.zip_cons_cons, List.all_cons,
        Bool.and_eq_true, beq_iff_eq, Nat.add_right_cancel_iff, List.map_cons, List.cons.injEq]
      rw [← this]
      tauto

theorem csvGo_eq (s cur : Text) : csvGo s cur = (s.splitOn ',').modifyHead (cur ++ ·) := by
  induction s generalizing cur with
  | nil => simp [csvGo]
  | cons c s ih =>
    rw [csvGo, List.splitOn_cons_eq_if_modifyHead]
    by_cases hc : c = ','
    · simp only [hc, if_true, beq_self_eq_true, ih, List.nil_append, List.modifyHead_cons,
        List.append_nil]
      cases s.splitOn ',' <;> rfl
    · rw [if_neg hc, if_neg (by simpa using hc), ih]
      cases s.splitOn ',' <;> simp

/-- `csv` splits at the commas. -/
theorem csv_eq_splitOn (s : Text) : csv s = s.splitOn ',' := by
  rw [csv, csvGo_eq]
  cases s.splitOn ',' <;> rfl

/-- What `csv` returns, joined by commas, is what it was given. -/
theorem intercalate_csv (s : Text) : [','].intercalate (csv s) = s := by
  rw [csv_eq_splitOn, List.intercalate_splitOn]

theorem csv_intercalate {l : List Text} (hl : l ≠ []) (hc : ∀ x ∈ l, ',' ∉ x) :
    csv ([','].intercalate l) = l := by
  rw [csv_eq_splitOn, List.splitOn_intercalate ',' hc hl]

theorem csv_ne_nil (s : Text) : csv s ≠ [] := by
  rw [csv_eq_splitOn]
  exact List.splitOn_ne_nil ',' s

theorem csv_cons (c : Char) (s : Text) :
    csv (c :: s) = if c = ',' then [] :: csv s else (csv s).modifyHead (c :: ·) := by
  rw [csv_eq_splitOn, csv_eq_splitOn, List.splitOn_cons_eq_if_modifyHead]
  simp only [beq_iff_eq]

/-- No segment has a comma. -/
theorem not_mem_of_mem_csv {s x : Text} (h : x ∈ csv s) : ',' ∉ x := by
  rw [csv_eq_splitOn] at h
  exact Text.not_mem_of_mem_splitOn h

/-- There is one segment more than there are commas. -/
theorem length_csv (s : Text) : (csv s).length = s.count ',' + 1 := by
  induction s with
  | nil => rfl
  | cons c s ih =>
    rw [csv_cons, List.count_cons]
    split
    · rename_i hc
      simp [hc, ih]
    · rename_i hc
      simp [hc, ih]

/-- A list with an empty element: nothing at all, a comma at either end, or
two in a row. -/
def Gap (s : Text) : Prop :=
  s = [] ∨ s.head? = some ',' ∨ s.getLast? = some ',' ∨ [',', ','] <:+: s

instance (s : Text) : Decidable (Gap s) := inferInstanceAs (Decidable (_ ∨ _ ∨ _ ∨ _))

theorem gap_comma_cons (s : Text) : Gap (',' :: s) := .inr (.inl rfl)

/-- Two commas in a row, behind a character that is none, stand in the
rest. -/
theorem commas_infix_cons {c : Char} {s : Text} (hc : c ≠ ',') :
    [',', ','] <:+: c :: s ↔ [',', ','] <:+: s := by
  rw [List.infix_cons_iff]
  refine or_iff_right fun h => hc ?_
  exact (List.cons_prefix_cons.1 h).1.symm

/-- Behind a character that is no comma, and not before one, a gap is a gap
of the rest. -/
theorem gap_cons_cons {c d : Char} {s : Text} (hc : c ≠ ',') (hd : d ≠ ',') :
    Gap (c :: d :: s) ↔ Gap (d :: s) := by
  simp only [Gap, List.cons_ne_nil, List.head?_cons, Option.some.injEq, hc, hd, false_or,
    List.getLast?_cons_cons, commas_infix_cons hc]

/-- Behind a character and a comma, it is a gap of what follows. -/
theorem gap_cons_comma {c : Char} {s : Text} (hc : c ≠ ',') : Gap (c :: ',' :: s) ↔ Gap s := by
  simp only [Gap, List.cons_ne_nil, List.head?_cons, Option.some.injEq, hc, false_or,
    commas_infix_cons hc, List.infix_cons_iff (a := ','), List.cons_prefix_cons, true_and]
  cases s with
  | nil => simp
  | cons d s =>
    simp only [List.getLast?_cons_cons, List.cons_ne_nil, List.head?_cons, Option.some.injEq,
      List.cons_prefix_cons, List.nil_prefix, and_true, false_or, eq_comm]
    tauto

/-- **An empty segment is a gap.** -/
theorem nil_mem_csv_iff (s : Text) : [] ∈ csv s ↔ Gap s := by
  induction s using List.twoStepInduction with
  | nil => simp [csv, csvGo, Gap]
  | singleton c =>
    by_cases hc : c = ','
    · simp [hc, csv, csvGo, gap_comma_cons]
    · simp [hc, csv, csvGo, Gap, commas_infix_cons hc]
  | cons_cons c d s ih ihd =>
    by_cases hc : c = ','
    · subst hc
      simp [csv_cons, gap_comma_cons]
    · rw [csv_cons, if_neg hc]
      by_cases hd : d = ','
      · subst hd
        rw [gap_cons_comma hc, ← ih]
        simp [csv_cons]
      · rw [gap_cons_cons hc hd, ← ihd, csv_cons, if_neg hd]
        obtain ⟨y, ys, hy⟩ := List.exists_cons_of_ne_nil (csv_ne_nil s)
        simp [hy]

/-! ## The messages of the grammar -/

/-- The message opens with `IOT GNMI`, in any case. -/
def Addressed (t : List Text) : Prop :=
  ∃ a b rest, t = a :: b :: rest ∧ ieq a "iot".toList = true ∧ ieq b "gnmi".toList = true

/-- The message reads `IOT GNMI GET xs` and then `rest`. -/
def Gets (t : List Text) (xs : Text) (rest : List Text) : Prop :=
  ∃ a b op, t = a :: b :: op :: xs :: rest ∧ ieq a "iot".toList = true ∧
    ieq b "gnmi".toList = true ∧ ieq op "get".toList = true

/-- The message reads `IOT GNMI SET xs vs` and then `rest`. -/
def Sets (t : List Text) (xs vs : Text) (rest : List Text) : Prop :=
  ∃ a b op, t = a :: b :: op :: xs :: vs :: rest ∧ ieq a "iot".toList = true ∧
    ieq b "gnmi".toList = true ∧ ieq op "set".toList = true

/-- `xpath[,xpath...]`, as the list of them. -/
def Xpaths (l : List Text) : Prop := l ≠ [] ∧ ∀ x ∈ l, x ≠ [] ∧ ',' ∉ x

/-- **`IOT GNMI GET <xpath[,xpath...]>`.** -/
def GetMessage (t : List Text) : Prop := ∃ l, Xpaths l ∧ Gets t ([','].intercalate l) []

/-- **`IOT GNMI SET <xpath[,xpath...]> <value[,value...]>`**, with as many
values as xpaths. -/
def SetMessage (t : List Text) : Prop :=
  ∃ l vs, Xpaths l ∧ (∀ v ∈ vs, ',' ∉ v) ∧ l.length = vs.length ∧
    Sets t ([','].intercalate l) ([','].intercalate vs) []

/-- **The parser follows the grammar on this message.** -/
structure Conforms (t : List Text) : Prop where
  get : (parseGnmi t).kind = .get ↔ GetMessage t
  set : (parseGnmi t).kind = .set ↔ SetMessage t
  unknown : Addressed t → ¬ GetMessage t → ¬ SetMessage t →
    (parseGnmi t).kind = .unknown ∧ (parseGnmi t).error ≠ []
  notGnmi : ¬ Addressed t → (parseGnmi t).kind = .notGnmi
  xpaths : (∀ x ∈ (parseGnmi t).xpaths, x ≠ []) ∧ ∀ u ∈ (parseGnmi t).updates, u.1 ≠ []

/-- **The message has more than its arguments, or a gap among its
xpaths**: a `GET` with a list of xpaths, or a `SET` with as many commas
among the values as among the xpaths. -/
def Loose (t : List Text) : Prop :=
  (∃ xs rest, Gets t xs rest ∧ (rest ≠ [] ∨ Gap xs)) ∨
    ∃ xs vs rest, Sets t xs vs rest ∧ xs.count ',' = vs.count ',' ∧ (rest ≠ [] ∨ Gap xs)

theorem Gets.unique {t : List Text} {xs xs' : Text} {rest rest' : List Text} (h : Gets t xs rest)
    (h' : Gets t xs' rest') : xs = xs' ∧ rest = rest' := by
  obtain ⟨a, b, op, rfl, -⟩ := h
  obtain ⟨a', b', op', heq, -⟩ := h'
  simp only [List.cons.injEq] at heq
  exact heq.2.2.2

theorem Sets.unique {t : List Text} {xs xs' vs vs' : Text} {rest rest' : List Text}
    (h : Sets t xs vs rest) (h' : Sets t xs' vs' rest') : xs = xs' ∧ vs = vs' ∧ rest = rest' := by
  obtain ⟨a, b, op, rfl, -⟩ := h
  obtain ⟨a', b', op', heq, -⟩ := h'
  simp only [List.cons.injEq] at heq
  exact heq.2.2.2

/-- A message has one operation. -/
theorem Gets.not_sets {t : List Text} {xs xs' vs : Text} {rest rest' : List Text}
    (h : Gets t xs rest) : ¬ Sets t xs' vs rest' := by
  obtain ⟨a, b, op, rfl, -, -, hop⟩ := h
  rintro ⟨a', b', op', heq, -, -, hop'⟩
  simp only [List.cons.injEq] at heq
  rw [← heq.2.2.1, ieq_iff, ieq_iff.1 hop] at hop'
  exact absurd hop' (by decide)

theorem Gets.addressed {t : List Text} {xs : Text} {rest : List Text} (h : Gets t xs rest) :
    Addressed t := by
  obtain ⟨a, b, op, rfl, ha, hb, -⟩ := h
  exact ⟨a, b, _, rfl, ha, hb⟩

theorem Sets.addressed {t : List Text} {xs vs : Text} {rest : List Text} (h : Sets t xs vs rest) :
    Addressed t := by
  obtain ⟨a, b, op, rfl, ha, hb, -⟩ := h
  exact ⟨a, b, _, rfl, ha, hb⟩

/-- The segments of a token are a list of xpaths where it has no gap. -/
theorem xpaths_csv_iff (s : Text) : Xpaths (csv s) ↔ ¬ Gap s := by
  rw [← nil_mem_csv_iff]
  constructor
  · intro h hnil
    exact (h.2 [] hnil).1 rfl
  · intro h
    exact ⟨csv_ne_nil s, fun x hx => ⟨fun heq => h (heq ▸ hx), not_mem_of_mem_csv hx⟩⟩

theorem Xpaths.csv_intercalate {l : List Text} (h : Xpaths l) : csv ([','].intercalate l) = l :=
  ZeroTouch.csv_intercalate h.1 fun x hx => (h.2 x hx).2

/-- A `GET` is of the grammar where nothing follows and there is no gap. -/
theorem Gets.getMessage_iff {t : List Text} {xs : Text} {rest : List Text} (h : Gets t xs rest) :
    GetMessage t ↔ rest = [] ∧ ¬ Gap xs := by
  constructor
  · rintro ⟨l, hl, hg⟩
    obtain ⟨rfl, rfl⟩ := h.unique hg
    rw [← xpaths_csv_iff, hl.csv_intercalate]
    exact ⟨rfl, hl⟩
  · rintro ⟨rfl, hgap⟩
    exact ⟨csv xs, (xpaths_csv_iff xs).2 hgap, by rwa [intercalate_csv]⟩

/-- A `SET` is of the grammar where nothing follows, there is no gap, and
there are as many values as xpaths. -/
theorem Sets.setMessage_iff {t : List Text} {xs vs : Text} {rest : List Text}
    (h : Sets t xs vs rest) :
    SetMessage t ↔ rest = [] ∧ xs.count ',' = vs.count ',' ∧ ¬ Gap xs := by
  have hlen : (csv xs).length = (csv vs).length ↔ xs.count ',' = vs.count ',' := by
    rw [length_csv, length_csv, Nat.add_right_cancel_iff]
  constructor
  · rintro ⟨l, ws, hl, hws, hlw, hs⟩
    obtain ⟨rfl, rfl, rfl⟩ := h.unique hs
    have hne : ws ≠ [] := by
      rintro rfl
      exact hl.1 (List.length_eq_zero_iff.1 hlw)
    rw [← hlen, ← xpaths_csv_iff, hl.csv_intercalate, csv_intercalate hne hws]
    exact ⟨rfl, hlw, hl⟩
  · rintro ⟨rfl, hcount, hgap⟩
    refine ⟨csv xs, csv vs, (xpaths_csv_iff xs).2 hgap, fun v => not_mem_of_mem_csv,
      hlen.2 hcount, ?_⟩
    rwa [intercalate_csv, intercalate_csv]

/-! ## What the parser does -/

/-- **What the parser makes of a message.** -/
inductive Parsed (t : List Text) : GnmiCommand → Prop
  | notGnmi : ¬ Addressed t → Parsed t {}
  | malformed {error : String} : Addressed t → error.toList ≠ [] → (∀ xs rest, ¬ Gets t xs rest) →
      (∀ xs vs rest, Sets t xs vs rest → xs.count ',' ≠ vs.count ',') →
      Parsed t (.malformed error)
  | get {xs : Text} {rest : List Text} : Gets t xs rest →
      Parsed t { kind := .get, xpaths := csv xs }
  | set {xs vs : Text} {rest : List Text} : Sets t xs vs rest → xs.count ',' = vs.count ',' →
      Parsed t { kind := .set, updates := (csv xs).zip (csv vs) }

theorem parsed_get {a b op : Text} (args : List Text) (ha : ieq a "iot".toList = true)
    (hb : ieq b "gnmi".toList = true) (hop : ieq op "get".toList = true) :
    Parsed (a :: b :: op :: args) (parseGet args) := by
  cases args with
  | nil =>
    refine .malformed ⟨a, b, _, rfl, ha, hb⟩ (by decide) ?_ ?_
    · rintro xs rest ⟨a', b', op', heq, -⟩
      simp at heq
    · rintro xs vs rest ⟨a', b', op', heq, -⟩
      simp at heq
  | cons xs rest => exact .get ⟨a, b, op, rfl, ha, hb, hop⟩

theorem parsed_set {a b op : Text} (args : List Text) (ha : ieq a "iot".toList = true)
    (hb : ieq b "gnmi".toList = true) (hop : ieq op "set".toList = true) :
    Parsed (a :: b :: op :: args) (parseSet args) := by
  have hget : ∀ xs rest, ¬ Gets (a :: b :: op :: args) xs rest := by
    rintro xs rest ⟨a', b', op', heq, -, -, hop'⟩
    simp only [List.cons.injEq] at heq
    rw [← heq.2.2.1, ieq_iff, ieq_iff.1 hop] at hop'
    exact absurd hop' (by decide)
  match args with
  | [] =>
    refine .malformed ⟨a, b, _, rfl, ha, hb⟩ (by decide) hget ?_
    rintro xs vs rest ⟨a', b', op', heq, -⟩
    simp at heq
  | [_] =>
    refine .malformed ⟨a, b, _, rfl, ha, hb⟩ (by decide) hget ?_
    rintro xs vs rest ⟨a', b', op', heq, -⟩
    simp at heq
  | xs :: vs :: rest =>
    have hs : Sets (a :: b :: op :: xs :: vs :: rest) xs vs rest :=
      ⟨a, b, op, rfl, ha, hb, hop⟩
    simp only [parseSet, length_csv, ne_eq, Nat.add_right_cancel_iff]
    by_cases hcount : xs.count ',' = vs.count ','
    · rw [if_neg (by simpa using hcount)]
      exact .set hs hcount
    · rw [if_pos hcount]
      refine .malformed hs.addressed (by decide) hget fun xs' vs' rest' hs' => ?_
      obtain ⟨rfl, rfl, rfl⟩ := hs.unique hs'
      exact hcount

theorem parsed_op {a b : Text} (rest : List Text) (ha : ieq a "iot".toList = true)
    (hb : ieq b "gnmi".toList = true) : Parsed (a :: b :: rest) (parseGnmi (a :: b :: rest)) := by
  have hcond : (!ieq a "iot".toList || !ieq b "gnmi".toList) = false := by rw [ha, hb]; rfl
  cases rest with
  | nil =>
    simp only [parseGnmi, hcond]
    refine .malformed ⟨a, b, _, rfl, ha, hb⟩ (by decide) ?_ ?_
    · rintro xs rest ⟨a', b', op', heq, -⟩
      simp at heq
    · rintro xs vs rest ⟨a', b', op', heq, -⟩
      simp at heq
  | cons op args =>
    simp only [parseGnmi, hcond]
    by_cases hget : ieq op "get".toList = true
    · rw [if_neg (by decide), if_pos hget]
      exact parsed_get args ha hb hget
    · by_cases hset : ieq op "set".toList = true
      · rw [if_neg (by decide), if_neg hget, if_pos hset]
        exact parsed_set args ha hb hset
      · rw [if_neg (by decide), if_neg hget, if_neg hset]
        refine .malformed ⟨a, b, _, rfl, ha, hb⟩ (by decide) ?_ ?_
        · rintro xs rest ⟨a', b', op', heq, -, -, hop⟩
          simp only [List.cons.injEq] at heq
          exact hget (heq.2.2.1 ▸ hop)
        · rintro xs vs rest ⟨a', b', op', heq, -, -, hop⟩
          simp only [List.cons.injEq] at heq
          exact absurd (heq.2.2.1 ▸ hop) hset

theorem parsed (t : List Text) : Parsed t (parseGnmi t) := by
  match t with
  | [] => exact .notGnmi (by rintro ⟨a, b, rest, heq, -⟩; simp at heq)
  | [_] => exact .notGnmi (by rintro ⟨a, b, rest, heq, -⟩; simp at heq)
  | a :: b :: rest =>
    by_cases hab : ieq a "iot".toList = true ∧ ieq b "gnmi".toList = true
    · exact parsed_op rest hab.1 hab.2
    · have hcond : (!ieq a "iot".toList || !ieq b "gnmi".toList) = true := by
        rw [Bool.or_eq_true, Bool.not_eq_true', Bool.not_eq_true']
        simpa only [Bool.not_eq_true] using not_and_or.1 hab
      simp only [parseGnmi, hcond]
      refine .notGnmi ?_
      rintro ⟨a', b', rest', heq, ha, hb⟩
      simp only [List.cons.injEq] at heq
      exact hab ⟨heq.1 ▸ ha, heq.2.1 ▸ hb⟩

/-! ## The exact condition -/

theorem GetMessage.gets {t : List Text} (h : GetMessage t) : ∃ xs rest, Gets t xs rest := by
  obtain ⟨l, -, hg⟩ := h
  exact ⟨_, _, hg⟩

theorem SetMessage.sets {t : List Text} (h : SetMessage t) :
    ∃ xs vs rest, Sets t xs vs rest ∧ xs.count ',' = vs.count ',' := by
  obtain ⟨l, vs, -, -, -, hs⟩ := id h
  exact ⟨_, _, _, hs, (hs.setMessage_iff.1 h).2.1⟩

/-- A message that is no `GET` with a list, and no `SET` with lists of one
length, is none of the grammar's and not loose. -/
theorem no_message {t : List Text} (hng : ∀ xs rest, ¬ Gets t xs rest)
    (hns : ∀ xs vs rest, Sets t xs vs rest → xs.count ',' ≠ vs.count ',') :
    ¬ GetMessage t ∧ ¬ SetMessage t ∧ ¬ Loose t := by
  refine ⟨fun h => ?_, fun h => ?_, ?_⟩
  · obtain ⟨xs, rest, hg⟩ := h.gets
    exact hng xs rest hg
  · obtain ⟨xs, vs, rest, hs, hcount⟩ := h.sets
    exact hns xs vs rest hs hcount
  · rintro (⟨xs, rest, hg, -⟩ | ⟨xs, vs, rest, hs, hcount, -⟩)
    · exact hng xs rest hg
    · exact hns xs vs rest hs hcount

theorem Gets.not_setMessage {t : List Text} {xs : Text} {rest : List Text} (h : Gets t xs rest) :
    ¬ SetMessage t := by
  intro hset
  obtain ⟨xs', vs, rest', hs, -⟩ := hset.sets
  exact h.not_sets hs

theorem Sets.not_getMessage {t : List Text} {xs vs : Text} {rest : List Text}
    (h : Sets t xs vs rest) : ¬ GetMessage t := by
  intro hget
  obtain ⟨xs', rest', hg⟩ := hget.gets
  exact hg.not_sets h

/-- A `GET` is loose in what follows its list, or in a gap of the list. -/
theorem Gets.loose_iff {t : List Text} {xs : Text} {rest : List Text} (h : Gets t xs rest) :
    Loose t ↔ rest ≠ [] ∨ Gap xs := by
  constructor
  · rintro (⟨xs', rest', hg, hl⟩ | ⟨xs', vs, rest', hs, -⟩)
    · obtain ⟨rfl, rfl⟩ := h.unique hg
      exact hl
    · exact absurd hs h.not_sets
  · exact fun hl => .inl ⟨xs, rest, h, hl⟩

/-- And so is a `SET` whose lists are of one length. -/
theorem Sets.loose_iff {t : List Text} {xs vs : Text} {rest : List Text} (h : Sets t xs vs rest)
    (hcount : xs.count ',' = vs.count ',') : Loose t ↔ rest ≠ [] ∨ Gap xs := by
  constructor
  · rintro (⟨xs', rest', hg, -⟩ | ⟨xs', vs', rest', hs, -, hl⟩)
    · exact absurd h hg.not_sets
    · obtain ⟨rfl, rfl, rfl⟩ := h.unique hs
      exact hl
  · exact fun hl => .inr ⟨xs, vs, rest, h, hcount, hl⟩

/-- **The parser follows the grammar where a message is not loose, and
nowhere else.** -/
theorem conforms_iff (t : List Text) : Conforms t ↔ ¬ Loose t := by
  have hp := parsed t
  generalize hcmd : parseGnmi t = cmd at hp
  cases hp with
  | notGnmi hn =>
    obtain ⟨hget, hset, hloose⟩ := no_message (fun _ _ hg => hn hg.addressed)
      fun _ _ _ hs => absurd hs.addressed hn
    refine iff_of_true ⟨?_, ?_, fun h => absurd h hn, ?_, ?_⟩ hloose
    · simpa [hcmd] using hget
    · simpa [hcmd] using hset
    · simp [hcmd]
    · simp [hcmd]
  | @malformed error haddr herr hng hns =>
    obtain ⟨hget, hset, hloose⟩ := no_message hng hns
    refine iff_of_true ⟨?_, ?_, fun _ _ _ => ?_, fun h => absurd haddr h, ?_⟩ hloose
    · simpa [hcmd, GnmiCommand.malformed] using hget
    · simpa [hcmd, GnmiCommand.malformed] using hset
    · simpa [hcmd, GnmiCommand.malformed] using herr
    · simp [hcmd, GnmiCommand.malformed]
  | @get xs rest hg =>
    have hmsg : GetMessage t ↔ ¬ Loose t := by
      rw [hg.getMessage_iff, hg.loose_iff, not_or, not_not]
    rw [← hmsg]
    constructor
    · intro h
      exact h.get.1 (by rw [hcmd])
    · intro h
      obtain ⟨-, hgap⟩ := hg.getMessage_iff.1 h
      refine ⟨?_, ?_, fun _ hn => absurd h hn, fun hn => absurd hg.addressed hn, ?_, ?_⟩
      · simpa [hcmd] using h
      · simpa [hcmd] using hg.not_setMessage
      · rw [hcmd]
        exact fun x hx => (((xpaths_csv_iff xs).2 hgap).2 x hx).1
      · simp [hcmd]
  | @set xs vs rest hs hcount =>
    have hmsg : SetMessage t ↔ ¬ Loose t := by
      rw [hs.setMessage_iff, hs.loose_iff hcount, not_or, not_not]
      tauto
    rw [← hmsg]
    constructor
    · intro h
      exact h.set.1 (by rw [hcmd])
    · intro h
      obtain ⟨-, -, hgap⟩ := hs.setMessage_iff.1 h
      refine ⟨?_, ?_, fun _ _ hn => absurd h hn, fun hn => absurd hs.addressed hn, ?_, ?_⟩
      · simpa [hcmd] using hs.not_getMessage
      · simpa [hcmd] using h
      · simp [hcmd]
      · rw [hcmd]
        rintro ⟨x, v⟩ hu
        exact (((xpaths_csv_iff xs).2 hgap).2 x (List.of_mem_zip hu).1).1

/-- **A space after a comma makes another command of it.** `/a, /b` is two
tokens: the second is dropped, and the first ends in an empty xpath, the
root of the tree. -/
theorem not_conforms_space :
    ¬ Conforms ["IOT".toList, "GNMI".toList, "GET".toList, "/a,".toList, "/b".toList] := by
  intro h
  obtain ⟨l, -, a, b, op, heq, -⟩ := h.get.1 (by decide)
  simp at heq

/-! ## The lists behind a command -/

/-- **A set of two joined lists** is their pairs, in order, where there are
as many of the one as of the other. -/
theorem parseGnmi_join {xs vs : List Text} (hxs : xs ≠ []) (hvs : vs ≠ [])
    (hx : ∀ x ∈ xs, ',' ∉ x) (hv : ∀ v ∈ vs, ',' ∉ v) :
    parseGnmi ["IOT".toList, "GNMI".toList, "SET".toList, [','].intercalate xs,
        [','].intercalate vs] =
      if xs.length = vs.length then { kind := .set, updates := xs.zip vs }
      else .malformed "gnmi set: xpath/value count mismatch" := by
  have hiot : ieq "IOT".toList "iot".toList = true := by decide
  have hgnmi : ieq "GNMI".toList "gnmi".toList = true := by decide
  have hget : ieq "SET".toList "get".toList = false := by decide
  have hset : ieq "SET".toList "set".toList = true := by decide
  simp only [parseGnmi, parseSet, hiot, hgnmi, hget, hset, csv_intercalate hxs hx,
    csv_intercalate hvs hv, ne_eq, ite_not]
  rfl

/-- The pairs of a set, taken apart and joined, are the two tokens. -/
theorem Sets.join_updates {t : List Text} {xs vs : Text} {rest : List Text} (h : Sets t xs vs rest)
    (hcount : xs.count ',' = vs.count ',') :
    t[3]? = some ([','].intercalate (((csv xs).zip (csv vs)).map Prod.fst)) ∧
      t[4]? = some ([','].intercalate (((csv xs).zip (csv vs)).map Prod.snd)) := by
  obtain ⟨a, b, op, rfl, -⟩ := h
  have hlen : (csv xs).length = (csv vs).length := by rw [length_csv, length_csv, hcount]
  rw [List.map_fst_zip hlen.le, List.map_snd_zip hlen.ge, intercalate_csv, intercalate_csv]
  exact ⟨rfl, rfl⟩

/-- **Pairing loses nothing.** Joined lists come back as their pairs, or as
no command at all where the counts differ; and what a set or a get was
parsed to, joined again, is the tokens it was parsed from. -/
theorem parseGnmi_lossless :
    (∀ xs vs : List Text, xs ≠ [] → vs ≠ [] → (∀ x ∈ xs, ',' ∉ x) → (∀ v ∈ vs, ',' ∉ v) →
      let cmd := parseGnmi ["IOT".toList, "GNMI".toList, "SET".toList, [','].intercalate xs,
        [','].intercalate vs]
      (xs.length = vs.length → cmd = { kind := .set, updates := xs.zip vs }) ∧
      (xs.length ≠ vs.length → cmd.kind = .unknown ∧ cmd.updates = [])) ∧
    (∀ t : List Text, (parseGnmi t).kind = .set →
      t[3]? = some ([','].intercalate ((parseGnmi t).updates.map Prod.fst)) ∧
      t[4]? = some ([','].intercalate ((parseGnmi t).updates.map Prod.snd))) ∧
    (∀ t : List Text, (parseGnmi t).kind = .get →
      t[3]? = some ([','].intercalate (parseGnmi t).xpaths)) := by
  refine ⟨?_, ?_, ?_⟩
  · intro xs vs hxs hvs hx hv cmd
    have hcmd : cmd = _ := parseGnmi_join hxs hvs hx hv
    rw [hcmd]
    exact ⟨fun h => if_pos h, fun h => by rw [if_neg h]; exact ⟨rfl, rfl⟩⟩
  · intro t hkind
    have hp := parsed t
    generalize parseGnmi t = cmd at hp hkind
    cases hp with
    | notGnmi => cases hkind
    | malformed => cases hkind
    | get => cases hkind
    | set hs hcount => exact hs.join_updates hcount
  · intro t hkind
    have hp := parsed t
    generalize parseGnmi t = cmd at hp hkind
    cases hp with
    | notGnmi => cases hkind
    | malformed => cases hkind
    | get hg =>
      obtain ⟨a, b, op, rfl, -⟩ := hg
      rw [intercalate_csv]
      rfl
    | set => cases hkind

/-- Empty segments keep their place. -/
example : parseGnmi ["iot".toList, "gnmi".toList, "set".toList, ",/a".toList, "1,".toList] =
    { kind := .set, updates := [([], "1".toList), ("/a".toList, [])] } := by
  decide

end ZeroTouch
