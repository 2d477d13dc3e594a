import ZeroTouch.Common.Text
/-!
# The sensitive-path denylist

`path_policy.cpp`: a path is sensitive when, lowercased, it contains a
deny token. Only the path is lowercased; a token is taken as it is
written, so one written with a capital matches nothing, and is of effect
only where the same list holds a lowercase token inside it.
-/

namespace ZeroTouch

/-- `default_deny_tokens`. -/
def defaultDenyTokens : List Text :=
  ["password".toList, "passwd".toList, "psk".toList, "secret".toList, "private-key".toList,
    "privatekey".toList, "credential".toList, "pre-shared".toList, "apikey".toList,
    "api-key".toList, "auth-key".toList]

/-- **`is_sensitive_path`.** -/
def isSensitivePath (xpath : Text) (tokens : List Text) : Bool :=
  tokens.any fun t => !t.isEmpty && Text.contains (Text.lower xpath) t

/-! ## What a match is -/

namespace PathPolicy

/-- `t` occurs in `xpath`, case set aside on both sides. -/
def Occurs (t xpath : Text) : Prop := t.lower <:+: xpath.lower

/-- The documented answer: some token occurs in the path. -/
def Denies (tokens : List Text) (xpath : Text) : Prop := ∃ t ∈ tokens, t ≠ [] ∧ Occurs t xpath

/-- A token written in lowercase, the only kind a lowercased path can hold. -/
def Lowercase (t : Text) : Prop := t ≠ [] ∧ t.lower = t

/-- Where a token of the list occurs in the path, so does a lowercase one. -/
def Covered (tokens : List Text) (xpath : Text) : Prop :=
  ∀ t ∈ tokens, t ≠ [] → Occurs t xpath → ∃ t' ∈ tokens, Lowercase t' ∧ Occurs t' xpath

variable {xpath xpath' : Text} {tokens tokens' : List Text}

/-- **The answer is that of the lowercase tokens.** -/
theorem isSensitivePath_iff :
    isSensitivePath xpath tokens = true ↔ ∃ t ∈ tokens, Lowercase t ∧ Occurs t xpath := by
  simp only [isSensitivePath, List.any_eq_true, Bool.and_eq_true, Bool.not_eq_true',
    List.isEmpty_eq_false_iff, Text.contains, decide_eq_true_eq]
  constructor
  · rintro ⟨t, ht, hne, hin⟩
    have hlow : t.lower = t := Text.lower_eq_of_infix hin
    exact ⟨t, ht, ⟨hne, hlow⟩, by rw [Occurs, hlow]; exact hin⟩
  · rintro ⟨t, ht, ⟨hne, hlow⟩, hin⟩
    rw [Occurs, hlow] at hin
    exact ⟨t, ht, hne, hin⟩

/-- What the code denies the documentation denies. -/
theorem denies_of_isSensitivePath (h : isSensitivePath xpath tokens = true) :
    Denies tokens xpath := by
  obtain ⟨t, ht, hlow, hin⟩ := isSensitivePath_iff.1 h
  exact ⟨t, ht, hlow.1, hin⟩

theorem isSensitivePath_iff_denies_iff :
    (isSensitivePath xpath tokens = true ↔ Denies tokens xpath) ↔ Covered tokens xpath := by
  constructor
  · intro h t ht hne hin
    exact isSensitivePath_iff.1 (h.2 ⟨t, ht, hne, hin⟩)
  · intro hcov
    refine ⟨denies_of_isSensitivePath, ?_⟩
    rintro ⟨t, ht, hne, hin⟩
    exact isSensitivePath_iff.2 (hcov t ht hne hin)

/-- **A list covers every path** exactly when each of its tokens holds a
lowercase one. The path to try is the token itself. -/
theorem covered_iff :
    (∀ xpath, Covered tokens xpath) ↔
      ∀ t ∈ tokens, t ≠ [] → ∃ t' ∈ tokens, Lowercase t' ∧ Occurs t' t := by
  constructor
  · intro h t ht hne
    exact h t t ht hne List.infix_rfl
  · intro h xpath t ht hne hin
    obtain ⟨t', ht', hlow, hsub⟩ := h t ht hne
    exact ⟨t', ht', hlow, hsub.trans hin⟩

/-- Only the lowercased path is looked at. -/
theorem isSensitivePath_congr (h : xpath.lower = xpath'.lower) :
    isSensitivePath xpath tokens = isSensitivePath xpath' tokens := by
  simp only [isSensitivePath, h]

/-- A path that holds a sensitive one is sensitive. -/
theorem isSensitivePath_of_infix (hsub : xpath <:+: xpath')
    (h : isSensitivePath xpath tokens = true) : isSensitivePath xpath' tokens = true := by
  obtain ⟨t, ht, hlow, hin⟩ := isSensitivePath_iff.1 h
  have hsub' : xpath.lower <:+: xpath'.lower := hsub.map Char.toLower
  exact isSensitivePath_iff.2 ⟨t, ht, hlow, hin.trans hsub'⟩

/-- More tokens deny no less. -/
theorem isSensitivePath_of_subset (hsub : tokens ⊆ tokens')
    (h : isSensitivePath xpath tokens = true) : isSensitivePath xpath tokens' = true := by
  obtain ⟨t, ht, hmatch⟩ := isSensitivePath_iff.1 h
  exact isSensitivePath_iff.2 ⟨t, hsub ht, hmatch⟩

/-- The documented answer reads the tokens without their case. -/
theorem Denies.congr (h : tokens.map Text.lower = tokens'.map Text.lower)
    (hd : Denies tokens xpath) : Denies tokens' xpath := by
  obtain ⟨t, ht, hne, hin⟩ := hd
  obtain ⟨t', ht', heq⟩ := List.mem_map.1 (h ▸ List.mem_map_of_mem ht)
  refine ⟨t', ht', ?_, by rw [Occurs, heq]; exact hin⟩
  rintro rfl
  exact hne (List.map_eq_nil_iff.1 heq.symm)

/-- **When the denylist is case-insensitive.** On a path the answer is the
documented one exactly when the path is covered, and on all paths exactly
when every token holds a lowercase one. The case of the path never
matters, that of the tokens does not where both spellings cover the path,
and the answer grows with the path and with the list. -/
theorem isSensitivePath_caseInsensitive_iff (xpath : Text) (tokens : List Text) :
    ((isSensitivePath xpath tokens = true ↔
        ∃ t ∈ tokens, t ≠ [] ∧ t.lower <:+: xpath.lower) ↔ Covered tokens xpath) ∧
    ((∀ xp : Text, isSensitivePath xp tokens = true ↔
        ∃ t ∈ tokens, t ≠ [] ∧ t.lower <:+: xp.lower) ↔
      ∀ t ∈ tokens, t ≠ [] → ∃ t' ∈ tokens, Lowercase t' ∧ Occurs t' t) ∧
    (∀ xp : Text, xp.lower = xpath.lower →
      isSensitivePath xp tokens = isSensitivePath xpath tokens) ∧
    (∀ ts : List Text, ts.map Text.lower = tokens.map Text.lower →
      Covered tokens xpath → Covered ts xpath →
      isSensitivePath xpath ts = isSensitivePath xpath tokens) ∧
    (∀ xp : Text, xpath <:+: xp → isSensitivePath xpath tokens = true →
      isSensitivePath xp tokens = true) ∧
    (∀ ts : List Text, tokens ⊆ ts → isSensitivePath xpath tokens = true →
      isSensitivePath xpath ts = true) := by
  refine ⟨isSensitivePath_iff_denies_iff, ?_, fun _ h => isSensitivePath_congr h, ?_,
    fun _ hsub => isSensitivePath_of_infix hsub, fun _ hsub => isSensitivePath_of_subset hsub⟩
  · rw [← covered_iff]
    exact forall_congr' fun xp => isSensitivePath_iff_denies_iff
  · intro ts hts hcov hcov'
    rw [Bool.eq_iff_iff, isSensitivePath_iff_denies_iff.2 hcov,
      isSensitivePath_iff_denies_iff.2 hcov']
    exact ⟨Denies.congr hts, Denies.congr hts.symm⟩

/-- A token in capitals denies nothing, not even the path spelled like it,
and the same token in lowercase denies that path. -/
theorem isSensitivePath_capitals :
    ¬ (isSensitivePath "/a/PASSWORD".toList ["PASSWORD".toList] = true ↔
        ∃ t ∈ ["PASSWORD".toList], t ≠ [] ∧
          Text.lower t <:+: Text.lower "/a/PASSWORD".toList) ∧
      isSensitivePath "/a/PASSWORD".toList ["password".toList] = true := by
  decide

end PathPolicy

end ZeroTouch
