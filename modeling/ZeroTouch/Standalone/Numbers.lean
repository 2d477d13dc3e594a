import Mathlib.Algebra.Ring.Nat
import ZeroTouch.Standalone.Config
/-!
# The numbers of the configuration

`to_u32` tests that a number is positive as a 64-bit `long` and casts it
to 32 bits after, and the port is cast to 16 on top of that. So a field is
the last positive number of its key's lines, reduced to the field's width
(`value_parseConfig`): a number that does not fit comes out as another
one, or as zero.
-/

namespace ZeroTouch

/-- A key whose field is a number. -/
inductive NumericKey
  | gnmiPort
  | sessionTtlSec
  | lockoutFailures
  | lockoutSec
  | modemBaud
  deriving DecidableEq, Repr

namespace NumericKey

def key : NumericKey → AppKey
  | gnmiPort => .gnmiPort
  | sessionTtlSec => .sessionTtlSec
  | lockoutFailures => .lockoutFailures
  | lockoutSec => .lockoutSec
  | modemBaud => .modemBaud

/-- The width of the field, in bits. -/
def width : NumericKey → ℕ
  | gnmiPort => 16
  | sessionTtlSec | lockoutFailures | lockoutSec | modemBaud => 32

/-- What the field holds, as a number. -/
def toNat : (q : NumericKey) → q.key.Value → ℕ
  | gnmiPort => UInt16.toNat
  | sessionTtlSec | lockoutFailures | lockoutSec | modemBaud => UInt32.toNat

/-- The number in the field. -/
def value (q : NumericKey) (c : AppConfig) : ℕ := q.toNat (q.key.field c)

end NumericKey

/-- The positive number `to_u32` takes from a value, before it casts it. -/
def positive (v : Text) : Option ℕ :=
  match stol v with
  | some n => if 0 < n then some n.toNat else none
  | none => none

/-- The positive numbers of the key's lines, in order. -/
def positives (q : NumericKey) (text : Text) : List ℕ :=
  (valuesFor q.key text).filterMap positive

/-- **The number is as written**: not zero, and either the default or what
some line for the key says, which fits the field. -/
def AsWritten (q : NumericKey) (text : Text) : Prop :=
  q.value (parseConfig text) ≠ 0 ∧
    (q.value (parseConfig text) = q.value {} ∨
      q.value (parseConfig text) < 2 ^ q.width ∧
        ∃ v ∈ valuesFor q.key text, Denotes v (q.value (parseConfig text)))

/-- **The last positive number fits the field**, or what is left of it
there happens to be the default or the number of another line. -/
def LastFits (q : NumericKey) (text : Text) : Prop :=
  ∀ n, (positives q text).getLast? = some n → n < 2 ^ q.width ∨
    n % 2 ^ q.width ≠ 0 ∧
      (n % 2 ^ q.width = q.value {} ∨ n % 2 ^ q.width ∈ positives q text)

/-! ## What is left of a number -/

theorem toNat_toU32 (v : Text) (dflt : UInt32) :
    (toU32 v dflt).toNat = ((positive v).map (· % 2 ^ 32)).getD dflt.toNat := by
  unfold toU32 positive
  cases stol v with
  | none => rfl
  | some n =>
    by_cases h : 0 < n
    · simp only [h, if_true, Option.map_some, Option.getD_some, UInt32.toNat_ofNat']
    · simp only [h, if_false, Option.map_none, Option.getD_none]

/-- The port's second cast leaves the first one's result as if it had been
the only one. -/
theorem toNat_toU32_toUInt16 (v : Text) (cur : UInt16) :
    (toU32 v cur.toUInt32).toUInt16.toNat =
      ((positive v).map (· % 2 ^ 16)).getD cur.toNat := by
  rw [UInt32.toNat_toUInt16, toNat_toU32]
  cases positive v with
  | none => exact Nat.mod_eq_of_lt cur.toNat_lt
  | some n => exact Nat.mod_mod_of_dvd n (by decide : 2 ^ 16 ∣ 2 ^ 32)

/-- What a value leaves in the field. -/
theorem toNat_read (q : NumericKey) (cur : q.key.Value) (v : Text) :
    q.toNat (q.key.read cur v) =
      ((positive v).map (· % 2 ^ q.width)).getD (q.toNat cur) := by
  cases q with
  | gnmiPort => exact toNat_toU32_toUInt16 v cur
  | sessionTtlSec => exact toNat_toU32 v cur
  | lockoutFailures => exact toNat_toU32 v cur
  | lockoutSec => exact toNat_toU32 v cur
  | modemBaud => exact toNat_toU32 v cur

theorem value_configLine (q : NumericKey) (c : AppConfig) (raw : Text) :
    q.value (configLine c raw) =
      (((valueFor q.key (cleanLine raw)).bind positive).map (· % 2 ^ q.width)).getD
        (q.value c) := by
  rw [NumericKey.value, field_configLine]
  cases valueFor q.key (cleanLine raw) with
  | none => rfl
  | some v => exact toNat_read q (q.key.field c) v

/-- **A number is what is left of the last positive one.** -/
theorem value_parseConfig (q : NumericKey) (text : Text) :
    q.value (parseConfig text) =
      ((positives q text).getLast?.map (· % 2 ^ q.width)).getD (q.value {}) := by
  have hfold : q.value (parseConfig text) =
      ((getlines text).filterMap fun raw => (valueFor q.key (cleanLine raw)).bind positive).foldl
        (fun _ n => n % 2 ^ q.width) (q.value {}) :=
    foldl_part q.value (fun _ n => n % 2 ^ q.width) (value_configLine q) (getlines text) {}
  rw [hfold, foldl_replace fun n => n % 2 ^ q.width, positives, valuesFor, List.filterMap_filterMap]

/-- A positive number is written on some line. -/
theorem mem_positives {q : NumericKey} {text : Text} {n : ℕ} (h : n ∈ positives q text) :
    0 < n ∧ ∃ v ∈ valuesFor q.key text, Denotes v n := by
  obtain ⟨v, hv, hpos⟩ := List.mem_filterMap.1 h
  unfold positive at hpos
  split at hpos
  · next m hm =>
    split at hpos
    · next h0 =>
      obtain rfl : m.toNat = n := Option.some.inj hpos
      refine ⟨by omega, v, hv, ?_⟩
      rw [Int.toNat_of_nonneg (by omega)]
      exact (stol_eq_some_iff.1 hm).1
    · cases hpos
  · cases hpos

/-- A number that fits the field and is written on some line is among
them. -/
theorem mem_positives_of_denotes {q : NumericKey} {text v : Text} {n : ℕ} (h0 : 0 < n)
    (hn : n < 2 ^ q.width) (hv : v ∈ valuesFor q.key text) (h : Denotes v n) :
    n ∈ positives q text := by
  have hwidth : 2 ^ q.width ≤ 2 ^ 32 := by cases q <;> decide
  have hstol : stol v = some (n : Int) := stol_eq_some_iff.2 ⟨h, by omega, by omega⟩
  refine List.mem_filterMap.2 ⟨v, hv, ?_⟩
  simp [positive, hstol, h0]

/-! ## When a number is as written -/

theorem value_default_pos (q : NumericKey) : q.value {} ≠ 0 := by
  cases q <;> decide

theorem asWritten_iff (q : NumericKey) (text : Text) : AsWritten q text ↔ LastFits q text := by
  unfold AsWritten LastFits
  rw [value_parseConfig]
  cases hlast : (positives q text).getLast? with
  | none =>
    refine iff_of_true ⟨value_default_pos q, .inl rfl⟩ ?_
    rintro n ⟨⟩
  | some n =>
    obtain ⟨hpos, v, hv, hden⟩ := mem_positives (List.mem_of_getLast? hlast)
    have hlt : n % 2 ^ q.width < 2 ^ q.width := Nat.mod_lt _ (Nat.two_pow_pos _)
    simp only [Option.map_some, Option.getD_some, Option.some.injEq, forall_eq']
    constructor
    · rintro ⟨hne, hdflt | ⟨-, v', hv', hden'⟩⟩
      · exact .inr ⟨hne, .inl hdflt⟩
      · exact .inr ⟨hne, .inr (mem_positives_of_denotes (Nat.pos_of_ne_zero hne) hlt hv' hden')⟩
    · rintro (hfits | ⟨hne, hdflt | hmem⟩)
      · rw [Nat.mod_eq_of_lt hfits]
        exact ⟨hpos.ne', .inr ⟨hfits, v, hv, hden⟩⟩
      · exact ⟨hne, .inl hdflt⟩
      · exact ⟨hne, .inr ⟨hlt, (mem_positives hmem).2⟩⟩

/-- **When no number is truncated.** The numbers of a configuration are
all as written exactly where, for each key, the last positive number of
its lines fits the field, or is truncated to one that is written as
well. -/
theorem numbers_asWritten_iff (text : Text) :
    (∀ q, AsWritten q text) ↔ ∀ q, LastFits q text :=
  forall_congr' fun q => asWritten_iff q text

/-- **A port nobody wrote**, and a lockout threshold of zero. -/
theorem not_asWritten_of_truncated :
    ¬ (∀ text q, AsWritten q text) ∧
      (parseConfig "gnmi.port = 65616".toList).gnmiPort = 80 ∧
      (parseConfig "lockout.failures = 4294967296".toList).lockoutFailures = 0 := by
  refine ⟨fun h => ?_, by decide, by decide⟩
  have hfits := (asWritten_iff _ _).1 (h "gnmi.port = 65616".toList .gnmiPort) 65616 (by decide)
  exact absurd hfits (by decide)

end ZeroTouch
