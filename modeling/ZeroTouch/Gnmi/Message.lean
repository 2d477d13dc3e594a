import ZeroTouch.Common.Text
/-!
# gNMI messages

What of `gnmi.proto` the sink writes and reads: paths, typed values, and
the `Get` and `Set` messages. A typed value is a scalar or, as the `JSON`
encoding allows, a whole document whose leaves lie under member names.
`fill` rewrites the leaves of a value where they stand, so `blank` is its
shape and a value is its shape and its leaves.
-/

namespace ZeroTouch

/-- `gnmi::PathElem`. -/
structure PathElem where
  name : Text
  keys : List (Text × Text) := []
  deriving DecidableEq, Repr

/-- `gnmi::Path`: its elements. -/
abbrev GnmiPath : Type := List PathElem

/-- A JSON document. A scalar is the text of its content. -/
inductive Json
  | scalar (content : Text)
  | arr (items : List Json)
  | obj (members : List (Text × Json))

namespace Json

mutual

/-- Rewrite every leaf, given the member names that lead to it. -/
def fill (f : List Text → Text → Text) : Json → Json
  | .scalar c => .scalar (f [] c)
  | .arr items => .arr (fillItems f items)
  | .obj members => .obj (fillMembers f members)

def fillItems (f : List Text → Text → Text) : List Json → List Json
  | [] => []
  | j :: js => fill f j :: fillItems f js

def fillMembers (f : List Text → Text → Text) : List (Text × Json) → List (Text × Json)
  | [] => []
  | (k, j) :: ms => (k, fill (fun names => f (k :: names)) j) :: fillMembers f ms

end

mutual

/-- The leaves in order, each with the member names that lead to it. An
array adds no name. -/
def leaves : Json → List (List Text × Text)
  | .scalar c => [([], c)]
  | .arr items => leavesItems items
  | .obj members => leavesMembers members

def leavesItems : List Json → List (List Text × Text)
  | [] => []
  | j :: js => leaves j ++ leavesItems js

def leavesMembers : List (Text × Json) → List (List Text × Text)
  | [] => []
  | (k, j) :: ms => (leaves j).map (fun l => (k :: l.1, l.2)) ++ leavesMembers ms

end

mutual

/-- Filling rewrites the leaves where they stand. -/
theorem leaves_fill (f : List Text → Text → Text) :
    ∀ j : Json, (j.fill f).leaves = j.leaves.map fun l => (l.1, f l.1 l.2)
  | .scalar c => by simp [fill, leaves]
  | .arr items => by simp [fill, leaves, leaves_fillItems f items]
  | .obj members => by simp [fill, leaves, leaves_fillMembers f members]

theorem leaves_fillItems (f : List Text → Text → Text) :
    ∀ js : List Json,
      leavesItems (fillItems f js) = (leavesItems js).map fun l => (l.1, f l.1 l.2)
  | [] => by simp [fillItems, leavesItems]
  | j :: js => by simp [fillItems, leavesItems, leaves_fill f j, leaves_fillItems f js]

theorem leaves_fillMembers (f : List Text → Text → Text) :
    ∀ ms : List (Text × Json),
      leavesMembers (fillMembers f ms) = (leavesMembers ms).map fun l => (l.1, f l.1 l.2)
  | [] => by simp [fillMembers, leavesMembers]
  | (k, j) :: ms => by
    simp [fillMembers, leavesMembers, leaves_fill _ j, leaves_fillMembers f ms, Function.comp_def]

end

mutual

/-- Two fillings in a row are one. -/
theorem fill_fill (f g : List Text → Text → Text) :
    ∀ j : Json, (j.fill g).fill f = j.fill fun names c => f names (g names c)
  | .scalar c => by simp [fill]
  | .arr items => by simp [fill, fillItems_fillItems f g items]
  | .obj members => by simp [fill, fillMembers_fillMembers f g members]

theorem fillItems_fillItems (f g : List Text → Text → Text) :
    ∀ js : List Json,
      fillItems f (fillItems g js) = fillItems (fun names c => f names (g names c)) js
  | [] => by simp [fillItems]
  | j :: js => by simp [fillItems, fill_fill f g j, fillItems_fillItems f g js]

theorem fillMembers_fillMembers (f g : List Text → Text → Text) :
    ∀ ms : List (Text × Json),
      fillMembers f (fillMembers g ms) = fillMembers (fun names c => f names (g names c)) ms
  | [] => by simp [fillMembers]
  | (k, j) :: ms => by simp [fillMembers, fill_fill _ _ j, fillMembers_fillMembers f g ms]

end

end Json

/-- `gnmi::TypedValue`: a scalar, or a document. -/
inductive TypedValue
  | scalar (content : Text)
  | json (doc : Json)

namespace TypedValue

/-- Rewrite every leaf, given the member names that lead to it. -/
def fill (f : List Text → Text → Text) : TypedValue → TypedValue
  | .scalar c => .scalar (f [] c)
  | .json j => .json (j.fill f)

/-- The leaves in order. A scalar is its own leaf. -/
def leaves : TypedValue → List (List Text × Text)
  | .scalar c => [([], c)]
  | .json j => j.leaves

/-- The shape of a value: its leaves emptied. -/
def blank (v : TypedValue) : TypedValue := v.fill fun _ _ => []

theorem leaves_fill (f : List Text → Text → Text) (v : TypedValue) :
    (v.fill f).leaves = v.leaves.map fun l => (l.1, f l.1 l.2) := by
  cases v with
  | scalar c => rfl
  | json j => exact j.leaves_fill f

theorem fill_fill (f g : List Text → Text → Text) (v : TypedValue) :
    (v.fill g).fill f = v.fill fun names c => f names (g names c) := by
  cases v with
  | scalar c => rfl
  | json j => exact congrArg _ (j.fill_fill f g)

@[simp] theorem blank_fill (f : List Text → Text → Text) (v : TypedValue) :
    (v.fill f).blank = v.blank := v.fill_fill _ f

end TypedValue

/-- `gnmi::Update`. -/
structure GnmiUpdate where
  path : GnmiPath
  val : TypedValue

/-- `gnmi::Notification`: the prefix its updates' paths are relative to,
and the updates. -/
structure Notification where
  pathPrefix : GnmiPath := []
  update : List GnmiUpdate

/-- `gnmi::GetRequest`: `prefix.target` carries the role. The encoding is
always `JSON`. -/
structure GetRequest where
  target : Text
  path : List GnmiPath

/-- `gnmi::GetResponse`. -/
structure GetResponse where
  notification : List Notification

/-- `gnmi::SetRequest`, of which the sink fills in updates only: `target`
is `prefix.target`, and carries the role. -/
structure SetRequest where
  target : Text
  update : List GnmiUpdate
  replace : List GnmiUpdate := []
  delete : List GnmiPath := []

/-- `gnmi::SetResponse`: the path of each result. -/
structure SetResponse where
  response : List GnmiPath

end ZeroTouch
