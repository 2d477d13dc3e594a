import ZeroTouch.Common.Fold
import ZeroTouch.Gnmi.Secrecy
import ZeroTouch.Sim.Server
/-!
# What was set is read back

Any number of clients set and get through their own sinks, and the
simulated device serves the calls one by one over its one tree. At any
call of a run a leaf of the tree is the latest write of it, where there
was one, and the seeded leaf where there was none (`served`). A get of
leaves that were written is therefore answered with these writes, one row
to an xpath: the exact leaf comes before the subtree.
-/

namespace ZeroTouch

namespace GnmiServer

variable (G : GnmiUtil)

/-- A call of a client's sink, with the client's configuration. -/
inductive SinkCall
  | get (cfg : LocalSinkConfig) (xpaths : List Text)
  | set (cfg : LocalSinkConfig) (updates : List (Text × Text))

/-- The result of a call, and the tree it leaves. -/
def serve (t : GnmiTree) : SinkCall → GnmiResult × GnmiTree
  | .get cfg xpaths => (sinkGet G cfg t xpaths, t)
  | .set cfg updates => sinkSet G cfg t updates

/-- A run: each call over the tree the one before it left, with its result. -/
def run : GnmiTree → List SinkCall → List (SinkCall × GnmiResult)
  | _, [] => []
  | t, c :: cs => (c, (serve G t c).1) :: run (serve G t c).2 cs

/-- The pairs a call wrote: those of a set that was answered with ok. -/
def writesOf : SinkCall × GnmiResult → List (Text × Text)
  | (.set _ updates, r) => if r.ok then updates else []
  | (.get _ _, _) => []

/-- All that was written, in order. -/
def writes (history : List (SinkCall × GnmiResult)) : List (Text × Text) :=
  history.flatMap writesOf

/-- The value of the latest write of `xpath`, in whatever spelling the
server knows it by. -/
def latest (ws : List (Text × Text)) (xpath : Text) : Option Text :=
  ((ws.filter fun p => G.canon p.1 = xpath).getLast?).map Prod.snd

variable {G}

theorem latest_append (ws ws' : List (Text × Text)) (xpath : Text) :
    latest G (ws ++ ws') xpath = (latest G ws' xpath).or (latest G ws xpath) := by
  simp only [latest, List.filter_append, List.getLast?_append]
  cases (ws'.filter fun p => G.canon p.1 = xpath).getLast? <;> rfl

/-- A written xpath has a latest write. -/
theorem exists_latest {ws : List (Text × Text)} {xpath : Text}
    (h : ∃ p ∈ ws, G.canon p.1 = xpath) : ∃ v, latest G ws xpath = some v := by
  obtain ⟨p, hp, hx⟩ := h
  have hmem : p ∈ ws.filter fun p => G.canon p.1 = xpath :=
    List.mem_filter.2 ⟨hp, by simpa using hx⟩
  have hne : (ws.filter fun p => G.canon p.1 = xpath) ≠ [] := List.ne_nil_of_mem hmem
  exact ⟨_, by rw [latest, List.getLast?_eq_some_getLast hne]; rfl⟩

/-! ## The tree along a run -/

/-- **One set.** Its own latest write of a key stands, else what was there
before. -/
theorem getElem?_foldl_write (hval : ∀ v, G.rendered v = v) (ws : List (Text × Text))
    (t : GnmiTree) (k : Text) :
    (ws.foldl (write G) t).kv[k]? = (latest G ws k).or t.kv[k]? := by
  have hstep : ∀ (t : GnmiTree) (p : Text × Text), (write G t p).kv[k]? =
      ((Option.guard (fun p => G.canon p.1 = k) p).map fun p => some p.2).getD t.kv[k]? := by
    intro t p
    rw [write, GnmiTree.getElem?_set, hval]
    by_cases hp : G.canon p.1 = k <;> simp [hp, Option.guard]
  have hfold := foldl_part (fun t : GnmiTree => t.kv[k]?)
    (fun _ (p : Text × Text) => some p.2) hstep ws t
  rw [hfold, List.filterMap_eq_filter, foldl_replace fun p : Text × Text => some p.2, latest]
  cases (ws.filter fun p => G.canon p.1 = k).getLast? <;> rfl

/-- **One call.** -/
theorem getElem?_serve (hval : ∀ v, G.rendered v = v) (t : GnmiTree) (c : SinkCall) (k : Text) :
    (serve G t c).2.kv[k]? = (latest G (writesOf (c, (serve G t c).1)) k).or t.kv[k]? := by
  cases c with
  | get cfg xpaths => rfl
  | set cfg updates =>
    simp only [serve, sinkSet_eq]
    split
    · exact getElem?_foldl_write hval updates t k
    · rfl

/-- **A run, up to one of its calls.** The call is served over a tree that
holds the latest write of every key written before it. -/
theorem served (hval : ∀ v, G.rendered v = v) {t : GnmiTree} {cs : List SinkCall}
    {before rest : List (SinkCall × GnmiResult)} {c : SinkCall} {r : GnmiResult}
    (hrun : run G t cs = before ++ (c, r) :: rest) :
    ∃ t', r = (serve G t' c).1 ∧ ∀ k, t'.kv[k]? = (latest G (writes before) k).or t.kv[k]? := by
  induction before generalizing t cs with
  | nil =>
    cases cs with
    | nil => simp [run] at hrun
    | cons c' cs =>
      obtain ⟨rfl, rfl⟩ := Prod.mk.inj (List.cons.inj hrun).1
      exact ⟨t, rfl, fun k => rfl⟩
  | cons e before ih =>
    cases cs with
    | nil => simp [run] at hrun
    | cons c' cs =>
      obtain ⟨rfl, htail⟩ := List.cons.inj hrun
      obtain ⟨t', hr, hkv⟩ := ih htail
      refine ⟨t', hr, fun k => ?_⟩
      have hcons : writes ((c', (serve G t c').1) :: before) =
          writesOf (c', (serve G t c').1) ++ writes before := List.flatMap_cons
      rw [hkv, getElem?_serve hval, hcons, latest_append, Option.or_assoc]

/-- A get of leaves is answered leaf by leaf. -/
theorem sinkGet_of_leaves (hval : ∀ v, G.rendered v = v) {cfg : LocalSinkConfig} {t : GnmiTree}
    {xpaths : List Text} {val : Text → Text} (hne : xpaths ≠ [])
    (hshown : ∀ x ∈ xpaths, isSensitivePath x cfg.deny = false)
    (hcanon : ∀ x ∈ xpaths, G.canon x = x) (hleaf : ∀ x ∈ xpaths, t.kv[x]? = some (val x)) :
    sinkGet G cfg t xpaths =
      { ok := true, grpcStatus := 0, paths := xpaths.map fun x => ⟨x, val x, []⟩ } := by
  have hasked : LocalGnmiSink.asked cfg xpaths = xpaths := by
    unfold LocalGnmiSink.asked
    exact List.filter_eq_self.2 fun x hx => by simp [hshown x hx]
  have hdenied : LocalGnmiSink.deniedRows cfg xpaths = [] := by
    unfold LocalGnmiSink.deniedRows
    rw [List.filter_eq_nil_iff.2 fun x hx => by simp [hshown x hx]]
    rfl
  have hrow : ∀ x ∈ xpaths, (t.lookup (G.canon x)).map (leafRow G cfg) = [⟨x, val x, []⟩] := by
    intro x hx
    have hx' : G.pathToString (G.parseYangPath x) = x := hcanon x hx
    have hv : G.typedValueToString (G.setTypedValue (val x)) = val x := hval (val x)
    rw [hcanon x hx, t.lookup_of_leaf (hleaf x hx)]
    simp [leafRow, leafUpdate, LocalGnmiSink.updateRow, hx', hv, hshown x hx]
  have hrows : rowsOf G cfg t xpaths = xpaths.map fun x => ⟨x, val x, []⟩ := by
    unfold rowsOf
    rw [List.flatMap_congr hrow, ← List.map_eq_flatMap]
  simp [sinkGet_eq, hasked, hdenied, hrows, hne]

/-- **What was set is read back.** In every run, from any tree, a get of
xpaths that were all set before it is answered with one row to an xpath,
in order, holding the value of its latest set. -/
theorem get_reads_latest (hval : ∀ v, G.rendered v = v) {t : GnmiTree} {cs : List SinkCall}
    {before rest : List (SinkCall × GnmiResult)} {cfg : LocalSinkConfig} {xpaths : List Text}
    {r : GnmiResult} (hrun : run G t cs = before ++ (.get cfg xpaths, r) :: rest)
    (hne : xpaths ≠ []) (hshown : ∀ x ∈ xpaths, isSensitivePath x cfg.deny = false)
    (hcanon : ∀ x ∈ xpaths, G.canon x = x)
    (hset : ∀ x ∈ xpaths, ∃ p ∈ writes before, G.canon p.1 = x) :
    ∃ val : Text → Text, (∀ x ∈ xpaths, latest G (writes before) x = some (val x)) ∧
      r = { ok := true, grpcStatus := 0, paths := xpaths.map fun x => ⟨x, val x, []⟩ } := by
  obtain ⟨t', rfl, hkv⟩ := served hval hrun
  have hlatest : ∀ x ∈ xpaths, latest G (writes before) x =
      some ((latest G (writes before) x).getD []) := by
    intro x hx
    obtain ⟨v, hv⟩ := exists_latest (hset x hx)
    rw [hv]
    rfl
  refine ⟨fun x => (latest G (writes before) x).getD [], hlatest, ?_⟩
  refine sinkGet_of_leaves hval hne hshown hcanon fun x hx => ?_
  rw [hkv, hlatest x hx]
  rfl

/-! ## Under `compactUtil` -/

theorem compactUtil_rendered (v : Text) : compactUtil.rendered v = v := List.append_nil v

/-- Two clients: the first writes a leaf twice in one request, the second a
leaf below it. -/
def twoClients : List SinkCall :=
  [.set {} [("/system".toList, "a".toList), ("/system".toList, "b".toList)],
    .set {} [("/system/name".toList, "c".toList)]]

/-- The tree they leave, from an empty one. -/
def twoClientsTree : GnmiTree := twoClients.foldl (fun t c => (serve compactUtil t c).2) ⟨∅⟩

theorem get_reads_latest_twoClients :
    ∃ val : Text → Text,
      (∀ x ∈ ["/system/name".toList, "/system".toList],
        latest compactUtil (writes (run compactUtil ⟨∅⟩ twoClients)) x = some (val x)) ∧
      sinkGet compactUtil {} twoClientsTree ["/system/name".toList, "/system".toList] =
        { ok := true, grpcStatus := 0,
          paths := ["/system/name".toList, "/system".toList].map fun x => ⟨x, val x, []⟩ } := by
  have hrun : run compactUtil ⟨∅⟩
      (twoClients ++ [.get {} ["/system/name".toList, "/system".toList]]) =
      run compactUtil ⟨∅⟩ twoClients ++
        [(.get {} ["/system/name".toList, "/system".toList],
          sinkGet compactUtil {} twoClientsTree ["/system/name".toList, "/system".toList])] := rfl
  exact get_reads_latest compactUtil_rendered hrun (by decide) (by decide) (by decide) (by decide)

/-- **An empty get is not answered with ok**: the sink has nothing to ask
for and nothing to report. -/
theorem not_get_reads_latest_nil :
    ¬ ∀ (G : GnmiUtil) (_ : ∀ v, G.rendered v = v) (t : GnmiTree) (cs : List SinkCall)
      (before rest : List (SinkCall × GnmiResult)) (cfg : LocalSinkConfig) (xpaths : List Text)
      (r : GnmiResult) (_ : run G t cs = before ++ (.get cfg xpaths, r) :: rest)
      (_ : ∀ x ∈ xpaths, isSensitivePath x cfg.deny = false)
      (_ : ∀ x ∈ xpaths, G.canon x = x)
      (_ : ∀ x ∈ xpaths, ∃ p ∈ writes before, G.canon p.1 = x),
      ∃ val : Text → Text, (∀ x ∈ xpaths, latest G (writes before) x = some (val x)) ∧
        r = { ok := true, grpcStatus := 0, paths := xpaths.map fun x => ⟨x, val x, []⟩ } := by
  intro h
  obtain ⟨val, -, hr⟩ := h compactUtil compactUtil_rendered ⟨∅⟩ [.get {} []] [] [] {} []
    (sinkGet compactUtil {} ⟨∅⟩ []) rfl (by simp) (by simp) (by simp)
  have hok : (sinkGet compactUtil {} ⟨∅⟩ []).ok = true := by rw [hr]
  exact absurd hok (by decide)

end GnmiServer

end ZeroTouch
