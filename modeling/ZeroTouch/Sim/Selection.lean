import ZeroTouch.Sim.Erase
/-!
# What a read and a delete select

`GnmiTree::lookup` scans the map and `GnmiTree::erase` deletes from it
while it iterates; each picks its leaves by its own test. They pick the
same ones: a delete takes the rows a read returns and no other key.
-/

namespace ZeroTouch

namespace GnmiTree

/-- The loop of `erase`, over what the iterator has before it and with
the leaves gone so far. Erasing a pair moves the iterator to the next and
touches no other. -/
def eraseLoop (xpath : Text) :
    List (Text × Text) → ℕ → Std.ExtTreeMap Text Text → ℕ × Std.ExtTreeMap Text Text
  | [], n, kv => (n, kv)
  | (k, _) :: rest, n, kv =>
    if under xpath k then eraseLoop xpath rest (n + 1) (kv.erase k) else eraseLoop xpath rest n kv

/-- **`GnmiTree::erase`, erasing as it iterates.** -/
def eraseIterating (t : GnmiTree) (xpath : Text) : ℕ × GnmiTree :=
  if xpath ∈ t.kv then (1, ⟨t.kv.erase xpath⟩)
  else
    let r := eraseLoop xpath t.kv.toList 0 t.kv
    (r.1, ⟨r.2⟩)

variable (t : GnmiTree) (xpath : Text)

/-! ## The delete -/

/-- What the loop counts, and what it leaves. -/
theorem eraseLoop_spec (l : List (Text × Text)) (n : ℕ) (kv : Std.ExtTreeMap Text Text) :
    (eraseLoop xpath l n kv).1 = n + (l.filter fun e => under xpath e.1).length ∧
      ∀ k, (eraseLoop xpath l n kv).2[k]? =
        if k ∈ l.map Prod.fst ∧ under xpath k = true then none else kv[k]? := by
  induction l generalizing n kv with
  | nil => simp [eraseLoop]
  | cons e l ih =>
    obtain ⟨k', v⟩ := e
    rw [eraseLoop]
    split
    · next hunder =>
      obtain ⟨hn, hkv⟩ := ih (n + 1) (kv.erase k')
      have hlen : ((k', v) :: l).filter (fun e => under xpath e.1) =
          (k', v) :: l.filter fun e => under xpath e.1 := List.filter_cons_of_pos hunder
      refine ⟨by rw [hn, hlen, List.length_cons]; omega, fun k => ?_⟩
      rw [hkv, Std.ExtTreeMap.getElem?_erase]
      simp only [List.map_cons, List.mem_cons]
      by_cases heq : k = k'
      · subst heq
        simp [hunder]
      · have hne : ¬ compare k' k = .eq := by simpa using Ne.symm heq
        simp only [heq, false_or, hne, if_false]
    · next hunder =>
      obtain ⟨hn, hkv⟩ := ih n kv
      have hlen : ((k', v) :: l).filter (fun e => under xpath e.1) =
          l.filter fun e => under xpath e.1 := List.filter_cons_of_neg hunder
      refine ⟨by rw [hn, hlen], fun k => ?_⟩
      rw [hkv]
      simp only [List.map_cons, List.mem_cons]
      by_cases heq : k = k'
      · subst heq
        simp [hunder]
      · simp only [heq, false_or]

/-- What is left where the leaves under the path are dropped. -/
theorem getElem?_filter_not_under (k : Text) :
    (t.kv.filter fun k _ => !under xpath k)[k]? =
      if under xpath k = true then none else t.kv[k]? := by
  rw [Std.ExtTreeMap.getElem?_filter']
  cases t.kv[k]? with
  | none => simp
  | some v => cases hunder : under xpath k <;> rfl

theorem mem_keys_iff {k : Text} : k ∈ t.kv.toList.map Prod.fst ↔ k ∈ t.kv := by
  rw [Std.ExtTreeMap.map_fst_toList_eq_keys, Std.ExtTreeMap.mem_keys]

/-- **Erasing while iterating** is dropping the leaves under the path. -/
theorem eraseIterating_eq : t.eraseIterating xpath = t.erase xpath := by
  unfold eraseIterating erase
  split
  · rfl
  · obtain ⟨hn, hkv⟩ := eraseLoop_spec xpath t.kv.toList 0 t.kv
    refine Prod.ext (by simp [hn, subtree]) (congrArg GnmiTree.mk ?_)
    refine Std.ExtTreeMap.ext_getElem? fun k => ?_
    rw [hkv, getElem?_filter_not_under]
    by_cases hk : k ∈ t.kv
    · simp only [(mem_keys_iff t).2 hk, true_and]
    · simp only [Std.ExtTreeMap.getElem?_eq_none hk, ite_self]

/-! ## The read -/

variable {t xpath} {k v : Text}

/-- The rows of a subtree are the leaves under its path. -/
theorem mem_subtree_iff :
    ⟨k, v⟩ ∈ t.subtree xpath ↔ t.kv[k]? = some v ∧ under xpath k = true := by
  simp only [subtree, List.mem_map, List.mem_filter, TreeEntry.mk.injEq]
  constructor
  · rintro ⟨e, ⟨he, hunder⟩, rfl, rfl⟩
    exact ⟨Std.ExtTreeMap.mem_toList_iff_getElem?_eq_some.1 he, hunder⟩
  · rintro ⟨hk, hunder⟩
    exact ⟨(k, v), ⟨Std.ExtTreeMap.mem_toList_iff_getElem?_eq_some.2 hk, hunder⟩, rfl, rfl⟩

theorem lookup_of_not_mem (h : xpath ∉ t.kv) : t.lookup xpath = t.subtree xpath := by
  simp only [lookup, Std.ExtTreeMap.getElem?_eq_none h]

/-- The rows come in the order of their keys, each key once. -/
theorem pairwise_lookup (t : GnmiTree) (xpath : Text) :
    ((t.lookup xpath).map TreeEntry.xpath).Pairwise (· < ·) := by
  by_cases hmem : xpath ∈ t.kv
  · obtain ⟨v, hv⟩ := mem_kv_iff.1 hmem
    rw [lookup_of_leaf t hv]
    exact List.pairwise_singleton ..
  · rw [lookup_of_not_mem hmem, subtree, List.map_map, List.pairwise_map]
    refine (Std.ExtTreeMap.ordered_keys_toList.filter _).imp fun hlt => ?_
    exact Text.compare_eq_lt_iff.1 hlt

/-! ## The two agree -/

theorem erase_count (t : GnmiTree) (xpath : Text) :
    (t.erase xpath).1 = (t.lookup xpath).length := by
  by_cases hmem : xpath ∈ t.kv
  · obtain ⟨v, hv⟩ := mem_kv_iff.1 hmem
    rw [erase, if_pos hmem, lookup_of_leaf t hv, List.length_singleton]
  · rw [erase, if_neg hmem, lookup_of_not_mem hmem]

/-- A delete takes the keys of the rows a read returns, and leaves every
other with its value. -/
theorem getElem?_erase (t : GnmiTree) (xpath k : Text) :
    (t.erase xpath).2.kv[k]? =
      if k ∈ (t.lookup xpath).map TreeEntry.xpath then none else t.kv[k]? := by
  by_cases hmem : xpath ∈ t.kv
  · obtain ⟨v, hv⟩ := mem_kv_iff.1 hmem
    rw [erase, if_pos hmem, lookup_of_leaf t hv, Std.ExtTreeMap.getElem?_erase]
    simp [eq_comm (a := xpath)]
  · rw [erase, if_neg hmem, lookup_of_not_mem hmem, getElem?_filter_not_under]
    cases hk : t.kv[k]? with
    | none => simp
    | some v =>
      have hrow : k ∈ (t.subtree xpath).map TreeEntry.xpath ↔ under xpath k = true := by
        constructor
        · intro hrow
          obtain ⟨⟨k', v'⟩, he, rfl⟩ := List.mem_map.1 hrow
          exact (mem_subtree_iff.1 he).2
        · intro hunder
          exact List.mem_map.2 ⟨⟨k, v⟩, mem_subtree_iff.2 ⟨hk, hunder⟩, rfl⟩
      simp only [hrow]

/-- A sibling whose name goes on where the path's ends is not under it. -/
theorem not_under_sibling {c : Char} (hc : c ≠ '/') (hroot : xpath ≠ "/".toList) (rest : Text) :
    under xpath (xpath ++ c :: rest) = false := by
  rw [under, if_neg hroot, Text.startsWith, Bool.eq_false_iff]
  intro hpre
  have hhead : "/".toList <+: c :: rest :=
    (List.prefix_append_right_inj xpath).1 (List.isPrefixOf_iff_prefix.1 hpre)
  exact hc (List.cons_prefix_cons.1 hhead).1.symm

/-- **A delete takes what a read returns.** For every tree and path, the
count is that of the rows, the rows' keys go and every other key keeps its
value; and the rows are, in key order and each once, the exact leaf or
else the leaves whose keys go on from the path past a slash. -/
theorem erase_takes_lookup (t : GnmiTree) (xpath : Text) :
    (t.eraseIterating xpath).1 = (t.lookup xpath).length ∧
    (∀ k, (t.eraseIterating xpath).2.kv[k]? =
      if k ∈ (t.lookup xpath).map TreeEntry.xpath then none else t.kv[k]?) ∧
    ((t.lookup xpath).map TreeEntry.xpath).Pairwise (· < ·) ∧
    (∀ v, t.kv[xpath]? = some v → t.lookup xpath = [⟨xpath, v⟩]) ∧
    (xpath ∉ t.kv → ∀ k v, ⟨k, v⟩ ∈ t.lookup xpath ↔ t.kv[k]? = some v ∧
      (if xpath = "/".toList then "/".toList else xpath ++ "/".toList) <+: k) ∧
    (xpath ≠ "/".toList → ∀ (c : Char) (rest : Text), c ≠ '/' →
      xpath ++ c :: rest ∉ (t.lookup xpath).map TreeEntry.xpath) := by
  rw [eraseIterating_eq]
  refine ⟨erase_count t xpath, getElem?_erase t xpath, pairwise_lookup t xpath,
    fun v hv => lookup_of_leaf t hv, fun hmem k v => ?_, fun hroot c rest hc hrow => ?_⟩
  · rw [lookup_of_not_mem hmem, mem_subtree_iff, under, Text.startsWith, List.isPrefixOf_iff_prefix]
  · obtain ⟨⟨k, v⟩, he, hk⟩ := List.mem_map.1 hrow
    obtain rfl : k = xpath ++ c :: rest := hk
    by_cases hmem : xpath ∈ t.kv
    · obtain ⟨w, hw⟩ := mem_kv_iff.1 hmem
      rw [lookup_of_leaf t hw, List.mem_singleton, TreeEntry.mk.injEq] at he
      simp at he
    · rw [lookup_of_not_mem hmem, mem_subtree_iff, not_under_sibling hc hroot] at he
      exact absurd he.2 (by decide)

end GnmiTree

end ZeroTouch
