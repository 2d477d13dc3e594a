import ZeroTouch.Gnmi.Executor
import ZeroTouch.Gnmi.LocalSink
import ZeroTouch.Sim.Tree
/-!
# The simulated device's gNMI server

`zt_gnmi_simd.cpp`'s two handlers over one tree, and `LocalGnmiSink` with
this server at the other end of its calls. A message that does not parse
is `none`; what the generated code writes it also reads back, so a call
hands the other side the message itself. The time stamps and the kind of
each set result are left out, since no one reads them, and so is the log.
-/

namespace ZeroTouch

namespace GnmiUtil

variable (G : GnmiUtil)

/-- The xpath the server knows a requested one by. -/
def canon (xpath : Text) : Text := G.pathToString (G.parseYangPath xpath)

/-- A value after one trip as a `TypedValue`. -/
def rendered (value : Text) : Text := G.typedValueToString (G.setTypedValue value)

end GnmiUtil

namespace GnmiServer

variable (G : GnmiUtil)

/-- The update a leaf is sent as. -/
def leafUpdate (row : TreeEntry) : GnmiUpdate :=
  ⟨G.parseYangPath row.xpath, G.setTypedValue row.value⟩

/-- **`handle_get`**: the status, and the response. The empty text that
goes with an error reads as the empty response. -/
def handleGet (t : GnmiTree) : Option GetRequest → Int × GetResponse
  | none => (3, ⟨[]⟩)
  | some req =>
    let rows := req.path.map fun p => t.lookup (G.pathToString p)
    let found := rows.flatten.length
    if 0 < req.path.length ∧ found = 0 then (5, ⟨[]⟩)
    else (0, ⟨rows.map fun es => { update := es.map (leafUpdate G) }⟩)

/-- One update. -/
def applyUpdate (t : GnmiTree) (u : GnmiUpdate) : GnmiTree :=
  t.set (G.pathToString u.path) (G.typedValueToString u.val)

/-- One replacement: the subtree goes, then the value is written. -/
def applyReplace (t : GnmiTree) (u : GnmiUpdate) : GnmiTree :=
  applyUpdate G (t.erase (G.pathToString u.path)).2 u

/-- One delete. -/
def applyDelete (t : GnmiTree) (p : GnmiPath) : GnmiTree := (t.erase (G.pathToString p)).2

/-- **`handle_set`.** A role other than `ADMIN` is refused, and the tree
stays. -/
def handleSet (t : GnmiTree) : Option SetRequest → (Int × SetResponse) × GnmiTree
  | none => ((3, ⟨[]⟩), t)
  | some req =>
    if req.target ≠ "ADMIN".toList then ((7, ⟨[]⟩), t)
    else
      let updated := req.update.foldl (applyUpdate G) t
      let replaced := req.replace.foldl (applyReplace G) updated
      let deleted := req.delete.foldl (applyDelete G) replaced
      ((0, ⟨req.update.map GnmiUpdate.path ++ req.replace.map GnmiUpdate.path ++ req.delete⟩),
        deleted)

/-- What the caller sees of an answer: `grpc-status` is the only trailer
sent, never `grpc-message`. -/
def unary {β : Type} (r : Int × β) : RpcResponse β := ⟨r.1, [], some r.2⟩

/-! ## The sink with this server -/

variable (cfg : LocalSinkConfig)

/-- `LocalGnmiSink::get` against the server. -/
def sinkGet (t : GnmiTree) (xpaths : List Text) : GnmiResult :=
  LocalGnmiSink.get G cfg (fun req => unary (handleGet G t (some req))) xpaths

/-- `LocalGnmiSink::set` against the server, with the tree it leaves. -/
def sinkSet (t : GnmiTree) (updates : List (Text × Text)) : GnmiResult × GnmiTree :=
  (LocalGnmiSink.set G cfg (fun req => unary (handleSet G t (some req)).1) updates,
    (handleSet G t (some (LocalGnmiSink.setRequest G cfg updates))).2)

/-- One write of a set, on the tree. -/
def write (t : GnmiTree) (p : Text × Text) : GnmiTree := t.set (G.canon p.1) (G.rendered p.2)

/-- The row a leaf comes back as. -/
def leafRow (e : TreeEntry) : GnmiPathResult := LocalGnmiSink.updateRow G cfg (leafUpdate G e)

/-- The rows a list of xpaths comes back as. -/
def rowsOf (t : GnmiTree) (xpaths : List Text) : List GnmiPathResult :=
  xpaths.flatMap fun xp => (t.lookup (G.canon xp)).map (leafRow G cfg)

/-- The response to a list of xpaths: one notification for each. -/
def responseOf (t : GnmiTree) (xpaths : List Text) : GetResponse where
  notification := xpaths.map fun xp => { update := (t.lookup (G.canon xp)).map (leafUpdate G) }

theorem responseRows_responseOf (t : GnmiTree) (xpaths : List Text) :
    LocalGnmiSink.responseRows G cfg (responseOf G t xpaths) = rowsOf G cfg t xpaths := by
  simp only [LocalGnmiSink.responseRows, responseOf, rowsOf, List.flatMap_map, List.map_map]
  rfl

/-- The server finds nothing exactly where the sink has no row to show. -/
theorem handleGet_eq (t : GnmiTree) {role : Text} {xpaths : List Text} (h : xpaths ≠ []) :
    handleGet G t (some ⟨role, xpaths.map G.parseYangPath⟩) =
      if rowsOf G cfg t xpaths = [] then (5, ⟨[]⟩) else (0, responseOf G t xpaths) := by
  have hpos : 0 < xpaths.length := List.length_pos_iff.2 h
  have hrows : rowsOf G cfg t xpaths =
      (xpaths.map fun xp => t.lookup (G.canon xp)).flatten.map (leafRow G cfg) := by
    rw [rowsOf, List.map_flatten, List.map_map, List.flatMap_def]
    rfl
  have hfound : (xpaths.map fun xp => t.lookup (G.canon xp)).flatten.length = 0 ↔
      rowsOf G cfg t xpaths = [] := by
    rw [hrows, List.map_eq_nil_iff, List.length_eq_zero_iff]
  simp only [handleGet, List.length_map, hpos, true_and, List.map_map, Function.comp_def,
    ← GnmiUtil.canon.eq_def, hfound, responseOf]

/-- **What a get returns.** -/
theorem sinkGet_eq (t : GnmiTree) (xpaths : List Text) :
    sinkGet G cfg t xpaths =
      let denied := LocalGnmiSink.deniedRows cfg xpaths
      let asked := LocalGnmiSink.asked cfg xpaths
      if asked = [] then { ok := !denied.isEmpty, grpcStatus := 0, paths := denied }
      else if rowsOf G cfg t asked = [] then { grpcStatus := 5, paths := denied }
      else { ok := true, grpcStatus := 0, paths := denied ++ rowsOf G cfg t asked } := by
  simp only [sinkGet, LocalGnmiSink.get, List.isEmpty_iff]
  by_cases hasked : LocalGnmiSink.asked cfg xpaths = []
  · simp only [if_pos hasked]
  · rw [handleGet_eq G cfg t hasked]
    by_cases hrows : rowsOf G cfg t (LocalGnmiSink.asked cfg xpaths) = []
    · simp [hasked, hrows, unary]
    · simp [hasked, hrows, unary, responseRows_responseOf]

/-- **What a set does.** It writes its pairs in order, or is refused. -/
theorem sinkSet_eq (t : GnmiTree) (updates : List (Text × Text)) :
    sinkSet G cfg t updates =
      if cfg.setRole = "ADMIN".toList then
        ({ ok := true, grpcStatus := 0, paths := updates.map fun p => ⟨G.canon p.1, [], []⟩ },
          updates.foldl (write G) t)
      else ({ grpcStatus := 7 }, t) := by
  -- an update built from a pair is that pair's write
  have hwrite : (fun t (p : Text × Text) =>
      applyUpdate G t ⟨G.parseYangPath p.1, G.setTypedValue p.2⟩) = write G := rfl
  by_cases hrole : cfg.setRole = "ADMIN".toList
  · simp only [sinkSet, LocalGnmiSink.set, LocalGnmiSink.setRequest, handleSet, unary, hrole,
      List.foldl_map, hwrite]
    simp [Function.comp_def, GnmiUtil.canon]
  · simp only [sinkSet, LocalGnmiSink.set, LocalGnmiSink.setRequest, handleSet, unary, ne_eq, hrole,
      not_false_iff, if_true, if_false]
    simp

end GnmiServer

end ZeroTouch
