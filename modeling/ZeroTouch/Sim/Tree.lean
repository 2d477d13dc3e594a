import ZeroTouch.Common.Text
/-!
# The tree of the simulated device

`gnmi_tree.hpp`: a flat map from xpaths to values, iterated in the order
of its keys. A read or a delete takes the exact leaf where there is one
and the whole subtree where there is none.
-/

namespace ZeroTouch

/-- `TreeEntry`: one leaf. -/
structure TreeEntry where
  xpath : Text
  value : Text
  deriving DecidableEq, Repr

/-- `GnmiTree`: its `m_kv`, a `std::map`. -/
structure GnmiTree where
  kv : Std.ExtTreeMap Text Text

namespace GnmiTree

/-- `k` lies in the subtree at `xpath`: it continues it past a slash, and
everything continues the root. -/
def under (xpath k : Text) : Bool :=
  k.startsWith (if xpath = "/".toList then "/".toList else xpath ++ "/".toList)

/-- `k` is the path or lies under it. -/
def AtOrUnder (xpath k : Text) : Prop := k = xpath ∨ under xpath k = true

/-- **`GnmiTree::set`.** -/
def set (t : GnmiTree) (xpath value : Text) : GnmiTree := ⟨t.kv.insert xpath value⟩

/-- The leaves under `xpath`, in the order of their keys. -/
def subtree (t : GnmiTree) (xpath : Text) : List TreeEntry :=
  (t.kv.toList.filter fun e => under xpath e.1).map fun e => ⟨e.1, e.2⟩

/-- **`GnmiTree::lookup`.** -/
def lookup (t : GnmiTree) (xpath : Text) : List TreeEntry :=
  match t.kv[xpath]? with
  | some value => [⟨xpath, value⟩]
  | none => t.subtree xpath

/-- **`GnmiTree::erase`**, with how many leaves went. -/
def erase (t : GnmiTree) (xpath : Text) : ℕ × GnmiTree :=
  if xpath ∈ t.kv then (1, ⟨t.kv.erase xpath⟩)
  else ((t.subtree xpath).length, ⟨t.kv.filter fun k _ => !under xpath k⟩)

variable (t : GnmiTree)

theorem getElem?_set (xpath value k : Text) :
    (t.set xpath value).kv[k]? = if xpath = k then some value else t.kv[k]? := by
  simp [set, Std.ExtTreeMap.getElem?_insert]

theorem lookup_of_leaf {xpath value : Text} (h : t.kv[xpath]? = some value) :
    t.lookup xpath = [⟨xpath, value⟩] := by
  simp only [lookup, h]

/-- What a read returns is in the tree. -/
theorem mem_of_mem_lookup {xpath : Text} {e : TreeEntry} (h : e ∈ t.lookup xpath) :
    t.kv[e.xpath]? = some e.value := by
  unfold lookup at h
  split at h
  · next value hv =>
    obtain rfl := List.mem_singleton.1 h
    exact hv
  · obtain ⟨p, hp, rfl⟩ := List.mem_map.1 h
    exact Std.ExtTreeMap.mem_toList_iff_getElem?_eq_some.1 (List.mem_filter.1 hp).1

end GnmiTree

end ZeroTouch
