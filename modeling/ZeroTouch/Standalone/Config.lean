import ZeroTouch.Common.Decimal
import ZeroTouch.Common.Fold
import ZeroTouch.Standalone.TextFile
/-!
# The configuration of the standalone daemon

`config.cpp`: a file of `key = value` lines. Each line with a key the
parser knows sets one field, and a number that does not parse leaves the
field as it was. So what a field ends up as is a fold over the values of
its own key's lines (`field_parseConfig`), whatever else the file holds.
-/

namespace ZeroTouch

/-- `ModemType`. -/
inductive ModemType
  | auto
  | sierra
  | quectel
  | ublox
  | generic
  deriving DecidableEq, Repr

/-- `AppConfig`, with its defaults. -/
structure AppConfig where
  enabled : Bool := false
  gnmiHost : Text := "127.0.0.1".toList
  gnmiPort : UInt16 := 50051
  allowedNumbers : List Text := []
  sessionTtlSec : UInt32 := 600
  lockoutFailures : UInt32 := 5
  lockoutSec : UInt32 := 900
  modemDev : Text := "/dev/ttyUSB2".toList
  modemBaud : UInt32 := 115200
  modemType : ModemType := .auto
  usersFile : Text := "/etc/zerotouch/users".toList
  deriving DecidableEq

/-- `to_bool`. -/
def toBool (v : Text) : Bool :=
  v == "1".toList || v == "true".toList || v == "yes".toList || v == "on".toList

/-- `to_u32`: the number is tested as it was read, and cast after. -/
def toU32 (v : Text) (dflt : UInt32) : UInt32 :=
  match stol v with
  | some n => if 0 < n then UInt32.ofNat n.toNat else dflt
  | none => dflt

/-- `parse_modem_type`. -/
def parseModemType (s : Text) : ModemType :=
  let v := s.lower
  if v = "sierra".toList then .sierra
  else if v = "quectel".toList then .quectel
  else if v = "ublox".toList ∨ v = "u-blox".toList then .ublox
  else if v = "generic".toList then .generic
  else .auto

/-- The chain of comparisons in `parse_config`. -/
def assign (c : AppConfig) (key val : Text) : AppConfig :=
  if key = "enabled".toList then { c with enabled := toBool val }
  else if key = "gnmi.host".toList then { c with gnmiHost := val }
  else if key = "gnmi.port".toList then
    { c with gnmiPort := (toU32 val c.gnmiPort.toUInt32).toUInt16 }
  else if key = "allowed.numbers".toList then { c with allowedNumbers := splitCsv val }
  else if key = "session.ttl.sec".toList then
    { c with sessionTtlSec := toU32 val c.sessionTtlSec }
  else if key = "lockout.failures".toList then
    { c with lockoutFailures := toU32 val c.lockoutFailures }
  else if key = "lockout.sec".toList then { c with lockoutSec := toU32 val c.lockoutSec }
  else if key = "modem.dev".toList then { c with modemDev := val }
  else if key = "modem.baud".toList then { c with modemBaud := toU32 val c.modemBaud }
  else if key = "modem.type".toList then { c with modemType := parseModemType val }
  else if key = "users.file".toList then { c with usersFile := val }
  else c

/-- One turn of the loop of `parse_config`. -/
def configLine (c : AppConfig) (raw : Text) : AppConfig :=
  let line := cleanLine raw
  if line.isEmpty then c
  else
    match cut '=' line with
    | none => c
    | some (key, val) => assign c (trim key) (trim val)

/-- **`parse_config`.** -/
def parseConfig (text : Text) : AppConfig := (getlines text).foldl configLine {}

/-! ## The keys -/

/-- A key of the file. -/
inductive AppKey
  | enabled
  | gnmiHost
  | gnmiPort
  | allowedNumbers
  | sessionTtlSec
  | lockoutFailures
  | lockoutSec
  | modemDev
  | modemBaud
  | modemType
  | usersFile
  deriving DecidableEq, Repr

namespace AppKey

/-- How the file spells the key. -/
def name : AppKey → Text
  | enabled => "enabled".toList
  | gnmiHost => "gnmi.host".toList
  | gnmiPort => "gnmi.port".toList
  | allowedNumbers => "allowed.numbers".toList
  | sessionTtlSec => "session.ttl.sec".toList
  | lockoutFailures => "lockout.failures".toList
  | lockoutSec => "lockout.sec".toList
  | modemDev => "modem.dev".toList
  | modemBaud => "modem.baud".toList
  | modemType => "modem.type".toList
  | usersFile => "users.file".toList

/-- What the key's field holds. -/
abbrev Value : AppKey → Type
  | enabled => Bool
  | gnmiPort => UInt16
  | allowedNumbers => List Text
  | modemType => ModemType
  | gnmiHost | modemDev | usersFile => Text
  | sessionTtlSec | lockoutFailures | lockoutSec | modemBaud => UInt32

/-- The key's field. -/
def field : (k : AppKey) → AppConfig → k.Value
  | enabled => AppConfig.enabled
  | gnmiHost => AppConfig.gnmiHost
  | gnmiPort => AppConfig.gnmiPort
  | allowedNumbers => AppConfig.allowedNumbers
  | sessionTtlSec => AppConfig.sessionTtlSec
  | lockoutFailures => AppConfig.lockoutFailures
  | lockoutSec => AppConfig.lockoutSec
  | modemDev => AppConfig.modemDev
  | modemBaud => AppConfig.modemBaud
  | modemType => AppConfig.modemType
  | usersFile => AppConfig.usersFile

/-- What a value makes of the field, given what it held. -/
def read : (k : AppKey) → k.Value → Text → k.Value
  | enabled, _, v => toBool v
  | gnmiPort, cur, v => (toU32 v cur.toUInt32).toUInt16
  | allowedNumbers, _, v => splitCsv v
  | modemType, _, v => parseModemType v
  | gnmiHost, _, v | modemDev, _, v | usersFile, _, v => v
  | sessionTtlSec, cur, v | lockoutFailures, cur, v | lockoutSec, cur, v | modemBaud, cur, v =>
    toU32 v cur

variable (k : AppKey) (c : AppConfig) (val : Text)

theorem field_assign_name : k.field (assign c k.name val) = k.read (k.field c) val := by
  cases k <;> rfl

/-- One link of the chain. -/
theorem field_ite {key name : Text} {c c' c'' : AppConfig}
    (h : key = name → k.field c' = k.field c) (h' : k.field c'' = k.field c) :
    k.field (if key = name then c' else c'') = k.field c := by
  split
  · exact h ‹_›
  · exact h'

/-- Another key's line does not touch the field. -/
theorem field_assign_of_ne {key : Text} (h : key ≠ k.name) :
    k.field (assign c key val) = k.field c := by
  unfold assign
  iterate 11
    refine k.field_ite ?_ ?_
    · rintro rfl
      cases k <;> first | rfl | exact absurd rfl h
  rfl

end AppKey

/-- The value a line brings for the key. -/
def valueFor (k : AppKey) (line : Text) : Option Text :=
  match cut '=' line with
  | none => none
  | some (key, val) => if trim key = k.name then some (trim val) else none

/-- The values a file has for the key, in order. -/
def valuesFor (k : AppKey) (text : Text) : List Text :=
  (getlines text).filterMap fun raw => valueFor k (cleanLine raw)

/-- What a line does to a field: nothing, unless it brings a value for
it. -/
theorem field_configLine (k : AppKey) (c : AppConfig) (raw : Text) :
    k.field (configLine c raw) =
      ((valueFor k (cleanLine raw)).map (k.read (k.field c))).getD (k.field c) := by
  unfold configLine valueFor
  by_cases hempty : (cleanLine raw).isEmpty = true
  · rw [if_pos hempty, List.isEmpty_iff.1 hempty]
    rfl
  · rw [if_neg hempty]
    cases cut '=' (cleanLine raw) with
    | none => rfl
    | some p =>
      obtain ⟨key, val⟩ := p
      by_cases hkey : trim key = k.name
      · simp only [hkey, if_true, k.field_assign_name, Option.map_some, Option.getD_some]
      · simp only [hkey, if_false, k.field_assign_of_ne c (trim val) hkey, Option.map_none,
          Option.getD_none]

/-- **A field is a fold over its own key's values.** -/
theorem field_parseConfig (k : AppKey) (text : Text) :
    k.field (parseConfig text) = (valuesFor k text).foldl k.read (k.field {}) :=
  foldl_part k.field k.read (field_configLine k) (getlines text) {}

/-! ## One key's lines decide its field -/

/-- **The line assigns the key.** -/
def Assigns (k : AppKey) (line : Text) : Prop :=
  ∃ key val, line = key ++ '=' :: val ∧ '=' ∉ key ∧ trim key = k.name

theorem assigns_iff {k : AppKey} {line : Text} :
    Assigns k line ↔ (valueFor k line).isSome = true := by
  unfold Assigns valueFor
  cases hcut : cut '=' line with
  | none =>
    refine iff_of_false ?_ (by simp)
    rintro ⟨key, val, heq, hkey, -⟩
    rw [cut_eq_some_iff.2 ⟨heq, hkey⟩] at hcut
    cases hcut
  | some p =>
    obtain ⟨key, val⟩ := p
    obtain ⟨heq, hkey⟩ := cut_eq_some_iff.1 hcut
    constructor
    · rintro ⟨key', val', heq', hkey', hname⟩
      rw [cut_eq_some_iff.2 ⟨heq', hkey'⟩] at hcut
      cases hcut
      simp only [hname, if_true, Option.isSome_some]
    · intro h
      refine ⟨key, val, heq, hkey, ?_⟩
      by_contra hname
      simp only [hname, if_false, Option.isSome_none, Bool.false_eq_true] at h

instance decidableAssigns (k : AppKey) : DecidablePred (Assigns k) :=
  fun _ => decidable_of_iff _ assigns_iff.symm

/-- The lines of a file that assign the key, as the parser looks at
them. -/
def assignments (k : AppKey) (text : Text) : List Text :=
  ((getlines text).map cleanLine).filter (Assigns k)

theorem valuesFor_eq (k : AppKey) (text : Text) :
    valuesFor k text = (assignments k text).filterMap (valueFor k) := by
  rw [assignments, List.filterMap_filter, List.filterMap_map]
  refine List.filterMap_congr fun raw _ => ?_
  by_cases h : Assigns k (cleanLine raw)
  · simp only [Function.comp, h, decide_true, if_true]
  · have hnone : valueFor k (cleanLine raw) = none := by
      simpa [assigns_iff] using h
    simp only [Function.comp, hnone, ite_self]

/-- **Keys are independent.** Two files with the same lines for a key, in
the same order, have the same field for it whatever else they hold; and
with no line for it the field keeps its default. -/
theorem field_eq_of_assignments_eq (k : AppKey) :
    (∀ text text' : Text, assignments k text = assignments k text' →
      k.field (parseConfig text) = k.field (parseConfig text')) ∧
    ∀ text : Text, assignments k text = [] → k.field (parseConfig text) = k.field {} := by
  refine ⟨fun text text' h => ?_, fun text h => ?_⟩
  · rw [field_parseConfig, field_parseConfig, valuesFor_eq, valuesFor_eq, h]
  · rw [field_parseConfig, valuesFor_eq, h]
    rfl

end ZeroTouch
