import Std.Data.ExtTreeMap
import ZeroTouch.Common.Fold
import ZeroTouch.Standalone.TextFile
/-!
# The users file

`users.cpp`: a file of `id:hash:access` lines, read into a map by id. A
line that lacks a field is skipped, a later record replaces an earlier one
of its id, and an access that is not `Admin` is `Viewer`. So a lookup
answers with the last record of the id, and with no other line of the
file.
-/

namespace ZeroTouch

/-- `User`. -/
structure User where
  id : Text
  hash : Text
  access : Text
  deriving DecidableEq, Repr

/-- `UserStore`: its `m_users`, a `std::map`. -/
structure UserStore where
  users : Std.ExtTreeMap Text User

/-- The record on a line, if the loop of `parse` gets to store one. -/
def userOf (line : Text) : Option User :=
  match cut ':' line with
  | none => none
  | some (first, rest) =>
    match cut ':' rest with
    | none => none
    | some (second, third) =>
      let u : User := ⟨trim first, trim second, trim third⟩
      if u.id.isEmpty || u.hash.isEmpty then none
      else if u.access ≠ "Admin".toList then some { u with access := "Viewer".toList }
      else some u

namespace UserStore

/-- One turn of the loop of `parse`. -/
def parseLine (store : UserStore) (raw : Text) : UserStore :=
  let line := cleanLine raw
  if line.isEmpty then store
  else
    match userOf line with
    | none => store
    | some u => ⟨store.users.insert u.id u⟩

/-- **`UserStore::parse`.** -/
def parse (text : Text) : UserStore := (getlines text).foldl parseLine ⟨∅⟩

/-- **`UserStore::lookup`.** -/
def lookup (store : UserStore) (id : Text) : Option User := store.users[id]?

end UserStore

/-- **The line is a record for the id**: it has two colons at least, the
field before the first is the id, and the one between the first two is not
blank. -/
def RecordFor (id line second third : Text) : Prop :=
  ∃ first, line = first ++ ':' :: (second ++ ':' :: third) ∧ ':' ∉ first ∧ ':' ∉ second ∧
    trim first = id ∧ id ≠ [] ∧ trim second ≠ []

/-- What a record says of its user. -/
def userFor (id second third : Text) : User :=
  ⟨id, trim second, if trim third = "Admin".toList then "Admin".toList else "Viewer".toList⟩

/-- What a line stores for the id. -/
def recordOf (id line : Text) : Option User :=
  (userOf line).filter fun u => u.id = id

/-! ## One line -/

/-- A line with its two colons stores its user, unless the id or the hash
is blank. -/
theorem userOf_fields {first second : Text} (hf : ':' ∉ first) (hs : ':' ∉ second)
    (third : Text) :
    userOf (first ++ ':' :: (second ++ ':' :: third)) =
      if trim first = [] ∨ trim second = [] then none
      else some (userFor (trim first) second third) := by
  have hfirst : cut ':' (first ++ ':' :: (second ++ ':' :: third)) =
      some (first, second ++ ':' :: third) := cut_eq_some_iff.2 ⟨rfl, hf⟩
  have hsecond : cut ':' (second ++ ':' :: third) = some (second, third) :=
    cut_eq_some_iff.2 ⟨rfl, hs⟩
  unfold userOf userFor
  simp only [hfirst, hsecond, Bool.or_eq_true, List.isEmpty_iff]
  split
  · rfl
  · by_cases hadmin : trim third = "Admin".toList
    · rw [if_neg (not_not.2 hadmin), if_pos hadmin, hadmin]
    · rw [if_pos hadmin, if_neg hadmin]

/-- A line that stores a user has two colons. -/
theorem fields_of_userOf {line : Text} {u : User} (h : userOf line = some u) :
    ∃ first second third, line = first ++ ':' :: (second ++ ':' :: third) ∧ ':' ∉ first ∧
      ':' ∉ second := by
  unfold userOf at h
  split at h
  · cases h
  · next first rest hfirst =>
    split at h
    · cases h
    · next second third hsecond =>
      obtain ⟨rfl, hf⟩ := cut_eq_some_iff.1 hfirst
      obtain ⟨rfl, hs⟩ := cut_eq_some_iff.1 hsecond
      exact ⟨first, second, third, rfl, hf, hs⟩

/-- **A line stores what it says**, if it is a record. -/
theorem recordOf_eq_some_iff {id line : Text} {u : User} :
    recordOf id line = some u ↔
      ∃ second third, RecordFor id line second third ∧ u = userFor id second third := by
  rw [recordOf, Option.filter_eq_some_iff, decide_eq_true_eq]
  constructor
  · rintro ⟨hu, hid⟩
    obtain ⟨first, second, third, rfl, hf, hs⟩ := fields_of_userOf hu
    rw [userOf_fields hf hs] at hu
    split at hu
    · cases hu
    · next hne =>
      rw [not_or] at hne
      obtain rfl := Option.some.inj hu
      obtain rfl : trim first = id := hid
      exact ⟨second, third, ⟨first, rfl, hf, hs, rfl, hne⟩, rfl⟩
  · rintro ⟨second, third, ⟨first, rfl, hf, hs, rfl, hne⟩, rfl⟩
    rw [userOf_fields hf hs, if_neg (not_or.2 hne)]
    exact ⟨rfl, rfl⟩

theorem recordOf_eq_none_iff {id line : Text} :
    recordOf id line = none ↔ ∀ second third, ¬ RecordFor id line second third := by
  rw [Option.eq_none_iff_forall_ne_some]
  constructor
  · intro h second third hrec
    exact h _ (recordOf_eq_some_iff.2 ⟨second, third, hrec, rfl⟩)
  · intro h u hu
    obtain ⟨second, third, hrec, -⟩ := recordOf_eq_some_iff.1 hu
    exact h second third hrec

theorem lookup_parseLine (id : Text) (store : UserStore) (raw : Text) :
    (store.parseLine raw).lookup id =
      ((recordOf id (cleanLine raw)).map some).getD (store.lookup id) := by
  unfold UserStore.parseLine UserStore.lookup
  by_cases hempty : (cleanLine raw).isEmpty = true
  · rw [if_pos hempty, List.isEmpty_iff.1 hempty]
    rfl
  · rw [if_neg hempty, recordOf]
    cases userOf (cleanLine raw) with
    | none => rfl
    | some u =>
      rw [Std.ExtTreeMap.getElem?_insert]
      by_cases hid : u.id = id
      · simp [hid, Option.filter]
      · simp [hid, Option.filter]

/-- **A lookup answers with the last record of the id.** -/
theorem lookup_parse (text id : Text) :
    (UserStore.parse text).lookup id =
      ((getlines text).filterMap fun raw => recordOf id (cleanLine raw)).getLast? := by
  have hfold : (UserStore.parse text).lookup id =
      ((getlines text).filterMap fun raw => recordOf id (cleanLine raw)).foldl
        (fun _ u => some u) none :=
    foldl_part (fun s : UserStore => s.lookup id) (fun _ u => some u) (lookup_parseLine id)
      (getlines text) ⟨∅⟩
  rw [hfold, foldl_replace some]
  cases ((getlines text).filterMap fun raw => recordOf id (cleanLine raw)).getLast? <;> rfl

/-! ## The last record wins -/

/-- **A lookup succeeds on the records of a file**, and answers with the
last of the id. For every file and id: it finds a user exactly where some
line is a record for the id; it returns the hash of the last such line, and
`Admin` exactly where that line says so; and a line that is no record for
the id, wherever it stands, changes nothing. -/
theorem lookup_last_record (text id : Text) :
    ((∃ u, (UserStore.parse text).lookup id = some u) ↔
      ∃ raw ∈ getlines text, ∃ second third, RecordFor id (cleanLine raw) second third) ∧
    (∀ before raw after second third, getlines text = before ++ raw :: after →
      RecordFor id (cleanLine raw) second third →
      (∀ later ∈ after, ∀ s t, ¬ RecordFor id (cleanLine later) s t) →
      (UserStore.parse text).lookup id = some ⟨id, trim second,
        if trim third = "Admin".toList then "Admin".toList else "Viewer".toList⟩) ∧
    (∀ text' before raw after, getlines text = before ++ raw :: after →
      getlines text' = before ++ after → (∀ s t, ¬ RecordFor id (cleanLine raw) s t) →
      (UserStore.parse text).lookup id = (UserStore.parse text').lookup id) := by
  refine ⟨?_, fun before raw after second third hlines hrec hlater => ?_,
    fun text' before raw after hlines hlines' hno => ?_⟩
  · rw [lookup_parse]
    constructor
    · rintro ⟨u, hu⟩
      obtain ⟨raw, hraw, hrec⟩ := List.mem_filterMap.1 (List.mem_of_getLast? hu)
      obtain ⟨second, third, hrec, -⟩ := recordOf_eq_some_iff.1 hrec
      exact ⟨raw, hraw, second, third, hrec⟩
    · rintro ⟨raw, hraw, second, third, hrec⟩
      have hmem : userFor id second third ∈
          (getlines text).filterMap fun raw => recordOf id (cleanLine raw) :=
        List.mem_filterMap.2 ⟨raw, hraw, recordOf_eq_some_iff.2 ⟨second, third, hrec, rfl⟩⟩
      exact ⟨_, List.getLast?_eq_some_getLast (List.ne_nil_of_mem hmem)⟩
  · have hsome := recordOf_eq_some_iff.2 ⟨second, third, hrec, rfl⟩
    have hnone : after.filterMap (fun raw => recordOf id (cleanLine raw)) = [] :=
      List.filterMap_eq_nil_iff.2 fun later hl => recordOf_eq_none_iff.2 (hlater later hl)
    rw [lookup_parse, hlines, List.filterMap_append]
    simp only [List.filterMap_cons, hsome, hnone, List.getLast?_concat, userFor]
  · rw [lookup_parse, lookup_parse, hlines, hlines', List.filterMap_append, List.filterMap_append]
    simp only [List.filterMap_cons, recordOf_eq_none_iff.2 hno]

end ZeroTouch
