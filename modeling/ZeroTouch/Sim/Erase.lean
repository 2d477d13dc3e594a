import ZeroTouch.Sim.Server
/-!
# Deleting a subtree

`GnmiTree::erase` takes the exact leaf where there is one, and the leaves
under the path where there is none. `set` puts a leaf anywhere, also over
or under another, so a path can be both a leaf and a container, and there
the first branch stops short: the leaf goes and what is under it stays.
A delete leaves nothing at or under its path exactly where the path is
not both (`erase_clear_iff`), and `REPLACE` inherits the condition.
-/

namespace ZeroTouch

namespace GnmiTree

/-- A call that changes the tree. -/
inductive TreeOp
  | set (xpath value : Text)
  | erase (xpath : Text)
  deriving DecidableEq, Repr

/-- The tree after one call. -/
def apply (t : GnmiTree) : TreeOp → GnmiTree
  | .set xpath value => t.set xpath value
  | .erase xpath => (t.erase xpath).2

/-- The tree after a sequence of calls on the empty one. -/
def reached (ops : List TreeOp) : GnmiTree := ops.foldl apply ⟨∅⟩

/-- Nothing is at the path or under it. -/
def Clear (t : GnmiTree) (xpath : Text) : Prop := ∀ k ∈ t.kv, ¬ AtOrUnder xpath k

/-- The path is a leaf and has others under it. -/
def Overlaps (t : GnmiTree) (xpath : Text) : Prop :=
  xpath ∈ t.kv ∧ ∃ k ∈ t.kv, k ≠ xpath ∧ under xpath k = true

/-- The path is the one leaf at it or under it, with this value. -/
def SoleLeaf (t : GnmiTree) (xpath value : Text) : Prop :=
  t.kv[xpath]? = some value ∧
    ∀ k w, t.kv[k]? = some w → AtOrUnder xpath k → k = xpath ∧ w = value

variable {t : GnmiTree} {xpath value k : Text}

/-! ## What an erase leaves -/

theorem mem_kv_iff : k ∈ t.kv ↔ ∃ v, t.kv[k]? = some v := by
  rw [Std.ExtTreeMap.mem_iff_isSome_getElem?, Option.isSome_iff_exists]

theorem mem_erase :
    k ∈ (t.erase xpath).2.kv ↔
      k ∈ t.kv ∧ if xpath ∈ t.kv then k ≠ xpath else under xpath k = false := by
  unfold erase
  split
  · rw [Std.ExtTreeMap.mem_erase, ne_eq, Std.LawfulEqCmp.compare_eq_iff_eq, and_comm, eq_comm]
  · simp [Std.ExtTreeMap.mem_filter]

/-- The path itself is gone. -/
theorem not_mem_erase : xpath ∉ (t.erase xpath).2.kv := by
  rw [mem_erase]
  rintro ⟨hmem, h⟩
  rw [if_pos hmem] at h
  exact h rfl

/-- **An erase clears its path** where that is not both leaf and container,
and nowhere else. -/
theorem clear_erase_iff : Clear (t.erase xpath).2 xpath ↔ ¬ Overlaps t xpath := by
  constructor
  · rintro hclear ⟨hmem, k, hk, hne, hunder⟩
    refine hclear k ?_ (.inr hunder)
    rw [mem_erase, if_pos hmem]
    exact ⟨hk, hne⟩
  · rintro hover k hk (rfl | hunder)
    · exact not_mem_erase hk
    · rw [mem_erase] at hk
      obtain ⟨hkt, hk⟩ := hk
      by_cases hmem : xpath ∈ t.kv
      · rw [if_pos hmem] at hk
        exact hover ⟨hmem, k, hkt, hk, hunder⟩
      · rw [if_neg hmem, hunder] at hk
        exact absurd hk (by decide)

/-- A read finds nothing exactly where there is nothing. -/
theorem lookup_eq_nil_iff : t.lookup xpath = [] ↔ Clear t xpath := by
  unfold lookup
  split
  · next v hv =>
    exact iff_of_false (List.cons_ne_nil _ _) fun h => h xpath (mem_kv_iff.2 ⟨v, hv⟩) (.inl rfl)
  · next hnone =>
    simp only [subtree, List.map_eq_nil_iff, List.filter_eq_nil_iff]
    constructor
    · rintro h k hk (rfl | hunder)
      · obtain ⟨v, hv⟩ := mem_kv_iff.1 hk
        rw [hnone] at hv
        cases hv
      · obtain ⟨v, hv⟩ := mem_kv_iff.1 hk
        exact h (k, v) (Std.ExtTreeMap.mem_toList_iff_getElem?_eq_some.2 hv) hunder
    · intro h e he hunder
      have hget := Std.ExtTreeMap.mem_toList_iff_getElem?_eq_some.1 he
      exact h e.1 (mem_kv_iff.2 ⟨e.2, hget⟩) (.inr hunder)

/-- A leaf written where the path is clear is the only one there, and one
written over other leaves is not. -/
theorem soleLeaf_set_iff (hmem : xpath ∉ t.kv) :
    SoleLeaf (t.set xpath value) xpath value ↔ Clear t xpath := by
  constructor
  · rintro ⟨-, hsole⟩ k hk hat
    obtain ⟨w, hw⟩ := mem_kv_iff.1 hk
    have hne : xpath ≠ k := by
      rintro rfl
      exact hmem hk
    exact hne (hsole k w (by rw [getElem?_set, if_neg hne, hw]) hat).1.symm
  · intro hclear
    refine ⟨by rw [getElem?_set, if_pos rfl], fun k w hw hat => ?_⟩
    rw [getElem?_set] at hw
    split at hw
    · next heq => exact ⟨heq.symm, (Option.some.inj hw).symm⟩
    · exact absurd hat (hclear k (mem_kv_iff.2 ⟨w, hw⟩))

/-! ## The trees the device can have -/

/-- A leaf is there because some call wrote it. -/
theorem mem_set_of_mem_reached {ops : List TreeOp} (hk : k ∈ (reached ops).kv) :
    ∃ value, TreeOp.set k value ∈ ops := by
  induction ops using List.reverseRecOn with
  | nil => simp [reached] at hk
  | append_singleton ops op ih =>
    have hstep : reached (ops ++ [op]) = apply (reached ops) op := by
      simp only [reached, List.foldl_append, List.foldl_cons, List.foldl_nil]
    rw [hstep] at hk
    have hold : k ∈ (reached ops).kv → ∃ value, TreeOp.set k value ∈ ops ++ [op] := fun h => by
      obtain ⟨v, hv⟩ := ih h
      exact ⟨v, List.mem_append_left _ hv⟩
    cases op with
    | set xpath value =>
      by_cases heq : xpath = k
      · exact ⟨value, by simp [heq]⟩
      · exact hold (by simpa [apply, set, Std.ExtTreeMap.mem_insert, heq] using hk)
    | erase xpath => exact hold (mem_erase.1 hk).1

/-- Where no path written lies under another, every delete clears. -/
theorem clear_erase_of_disjoint {ops : List TreeOp}
    (h : ∀ x v y w, TreeOp.set x v ∈ ops → TreeOp.set y w ∈ ops → y ≠ x → under x y = false)
    (xpath : Text) : Clear ((reached ops).erase xpath).2 xpath := by
  rw [clear_erase_iff]
  rintro ⟨hmem, k, hk, hne, hunder⟩
  obtain ⟨v, hv⟩ := mem_set_of_mem_reached hmem
  obtain ⟨w, hw⟩ := mem_set_of_mem_reached hk
  rw [h xpath v k w hv hw hne] at hunder
  cases hunder

end GnmiTree

namespace GnmiServer

open GnmiTree

variable (G : GnmiUtil)

/-- The calls an update is. -/
def updateOps (u : GnmiUpdate) : List TreeOp :=
  [.set (G.pathToString u.path) (G.typedValueToString u.val)]

/-- The calls a replacement is. -/
def replaceOps (u : GnmiUpdate) : List TreeOp :=
  .erase (G.pathToString u.path) :: updateOps G u

/-- The calls a delete is. -/
def deleteOps (p : GnmiPath) : List TreeOp := [.erase (G.pathToString p)]

/-- The calls of a request, in the order `handle_set` makes them. -/
def requestOps (req : SetRequest) : List TreeOp :=
  req.update.flatMap (updateOps G) ++ req.replace.flatMap (replaceOps G) ++
    req.delete.flatMap (deleteOps G)

theorem foldl_flatMap_apply {α : Type} (f : GnmiTree → α → GnmiTree) (ops : α → List TreeOp)
    (hf : ∀ t a, (ops a).foldl apply t = f t a) (l : List α) (t : GnmiTree) :
    (l.flatMap ops).foldl apply t = l.foldl f t := by
  induction l generalizing t with
  | nil => rfl
  | cons a l ih => rw [List.flatMap_cons, List.foldl_append, hf, ih, List.foldl_cons]

/-- **A write request is a sequence of calls**, so the trees a device goes
through are the reached ones. -/
theorem handleSet_reached {req : SetRequest} (hrole : req.target = "ADMIN".toList)
    (ops : List TreeOp) :
    (handleSet G (reached ops) (some req)).2 = reached (ops ++ requestOps G req) := by
  simp only [handleSet, hrole, ne_eq, not_true_eq_false, if_false, reached, requestOps,
    List.foldl_append]
  rw [foldl_flatMap_apply (applyUpdate G) (updateOps G) fun _ _ => rfl,
    foldl_flatMap_apply (applyReplace G) (replaceOps G) fun _ _ => rfl,
    foldl_flatMap_apply (applyDelete G) (deleteOps G) fun _ _ => rfl]

theorem soleLeaf_applyReplace_iff (t : GnmiTree) (u : GnmiUpdate) :
    SoleLeaf (applyReplace G t u) (G.pathToString u.path) (G.typedValueToString u.val) ↔
      ¬ Overlaps t (G.pathToString u.path) := by
  rw [applyReplace, applyUpdate, soleLeaf_set_iff not_mem_erase, clear_erase_iff]

/-- **When a delete leaves nothing.** After any calls, an erase leaves no
key at or under its path, and a read of it finds nothing, exactly where
the path was not a leaf with others under it; and on the same condition
the last replacement of a request leaves its path the one leaf there. -/
theorem erase_leaves_nothing_iff (ops : List TreeOp) :
    (∀ xpath : Text,
      ((∀ k ∈ ((reached ops).erase xpath).2.kv, k ≠ xpath ∧ under xpath k = false) ∧
        ((reached ops).erase xpath).2.lookup xpath = []) ↔ ¬ Overlaps (reached ops) xpath) ∧
    (∀ (us rs : List GnmiUpdate) (u : GnmiUpdate),
      SoleLeaf (handleSet G (reached ops) (some ⟨"ADMIN".toList, us, rs ++ [u], []⟩)).2
          (G.pathToString u.path) (G.typedValueToString u.val) ↔
        ¬ Overlaps (reached (ops ++ requestOps G ⟨"ADMIN".toList, us, rs, []⟩))
          (G.pathToString u.path)) := by
  refine ⟨fun xpath => ?_, fun us rs u => ?_⟩
  · rw [lookup_eq_nil_iff, clear_erase_iff, and_iff_right_iff_imp, ← clear_erase_iff]
    intro hclear k hk
    have hk := hclear k hk
    rw [AtOrUnder, not_or, Bool.not_eq_true] at hk
    exact hk
  · -- the request is the one without its last replacement, and then that
    have hlast : (handleSet G (reached ops) (some ⟨"ADMIN".toList, us, rs ++ [u], []⟩)).2 =
        applyReplace G (reached (ops ++ requestOps G ⟨"ADMIN".toList, us, rs, []⟩)) u := by
      rw [← handleSet_reached G rfl]
      simp only [handleSet, ne_eq, not_true_eq_false, if_false, List.foldl_append, List.foldl_cons,
        List.foldl_nil]
    rw [hlast, soleLeaf_applyReplace_iff]

/-- **A leaf deleted from over others** is gone alone: `/a/b` outlives the
delete of `/a`. -/
theorem not_clear_erase_leaf_over_leaf :
    ¬ ((∀ k ∈ ((reached [.set "/a".toList "1".toList, .set "/a/b".toList "2".toList]).erase
          "/a".toList).2.kv, k ≠ "/a".toList ∧ under "/a".toList k = false) ∧
      ((reached [.set "/a".toList "1".toList, .set "/a/b".toList "2".toList]).erase
          "/a".toList).2.lookup "/a".toList = []) := by
  rintro ⟨-, hlookup⟩
  rw [lookup_eq_nil_iff, clear_erase_iff] at hlookup
  refine hlookup ⟨by decide +kernel, "/a/b".toList, by decide +kernel, by decide, by decide⟩

end GnmiServer

end ZeroTouch
