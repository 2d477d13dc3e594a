import ZeroTouch.Sim.Accounting
import ZeroTouch.Sim.Session
/-!
# The simulator's two backends

`zt_sim.cpp` runs the bridge over an in-memory tree, or over the local sink
and the simulated device. The in-memory sink gives a row to every xpath,
the other one only to leaves it finds, and after the denied ones. So the
two answer a read alike exactly where every xpath that may be shown is a
leaf and the denied ones come first (`MemGnmiSink.get_eq_iff`), and over
messages that ask for nothing else the bridge cannot tell them apart
(`Surroundings.sims_agree`).
-/

namespace ZeroTouch

/-! ## The in-memory sink -/

namespace MemGnmiSink

/-- **`MemGnmiSink::set`**, with the tree it leaves. -/
def set (tree : Std.ExtTreeMap Text Text) (updates : List (Text × Text)) :
    GnmiResult × Std.ExtTreeMap Text Text :=
  ({ ok := true, grpcStatus := 0, paths := updates.map fun p => ⟨p.1, [], []⟩ },
    updates.foldl (fun tree p => tree.insert p.1 p.2) tree)

end MemGnmiSink

/-- The xpaths that are not sent. -/
def LocalGnmiSink.refused (cfg : LocalSinkConfig) (xpaths : List Text) : List Text :=
  xpaths.filter fun xp => isSensitivePath xp cfg.deny

/-- A read the two backends answer alike over `t`: all it may be shown are
leaves of the tree, and what it may not comes first. -/
structure LeafRead (cfg : LocalSinkConfig) (t : GnmiTree) (xpaths : List Text) : Prop where
  leaf : ∀ x ∈ LocalGnmiSink.asked cfg xpaths, x ∈ t.kv
  refused_first : xpaths = LocalGnmiSink.refused cfg xpaths ++ LocalGnmiSink.asked cfg xpaths

namespace MemGnmiSink

variable {G : GnmiUtil} {cfg : LocalSinkConfig} {t : GnmiTree} {xpaths : List Text}

theorem row_refused {x : Text} (hdeny : cfg.deny = defaultDenyTokens)
    (hx : x ∈ LocalGnmiSink.refused cfg xpaths) : row t.kv x = deniedRow x := by
  obtain ⟨-, hs⟩ := List.mem_filter.1 hx
  rw [hdeny] at hs
  exact if_pos hs

theorem row_leaf {x v : Text} (hdeny : cfg.deny = defaultDenyTokens)
    (hx : x ∈ LocalGnmiSink.asked cfg xpaths) (hv : t.kv[x]? = some v) :
    row t.kv x = ⟨x, v, []⟩ := by
  obtain ⟨-, hs⟩ := List.mem_filter.1 hx
  rw [hdeny] at hs
  unfold row
  rw [if_neg (by simpa using hs), hv]

theorem row_absent {x : Text} (hdeny : cfg.deny = defaultDenyTokens)
    (hx : x ∈ LocalGnmiSink.asked cfg xpaths) (hv : x ∉ t.kv) :
    row t.kv x = ⟨x, [], "not found".toList⟩ := by
  obtain ⟨-, hs⟩ := List.mem_filter.1 hx
  rw [hdeny] at hs
  unfold row
  rw [if_neg (by simpa using hs), Std.ExtTreeMap.getElem?_eq_none hv]

theorem map_row_xpath (xs : List Text) : (xs.map (row t.kv)).map GnmiPathResult.xpath = xs := by
  simp [Function.comp_def, row_xpath]

theorem deniedRows_eq (t : GnmiTree) (hdeny : cfg.deny = defaultDenyTokens) (xpaths : List Text) :
    LocalGnmiSink.deniedRows cfg xpaths = (LocalGnmiSink.refused cfg xpaths).map (row t.kv) :=
  List.map_congr_left fun _ hx => (row_refused hdeny hx).symm

/-- Where all that is asked for are leaves, the rows are the same. -/
theorem rowsOf_eq (hval : ∀ v, G.rendered v = v) (hdeny : cfg.deny = defaultDenyTokens)
    (hcanon : ∀ x ∈ xpaths, G.canon x = x)
    (hleaf : ∀ x ∈ LocalGnmiSink.asked cfg xpaths, x ∈ t.kv) :
    GnmiServer.rowsOf G cfg t (LocalGnmiSink.asked cfg xpaths) =
      (LocalGnmiSink.asked cfg xpaths).map (row t.kv) := by
  have hrow : ∀ x ∈ LocalGnmiSink.asked cfg xpaths,
      (t.lookup (G.canon x)).map (GnmiServer.leafRow G cfg) = [row t.kv x] := by
    intro x hx
    obtain ⟨hx₀, hs⟩ := List.mem_filter.1 hx
    obtain ⟨v, hv⟩ :=
      Option.isSome_iff_exists.1 (Std.ExtTreeMap.mem_iff_isSome_getElem?.1 (hleaf x hx))
    have hx' : G.pathToString (G.parseYangPath x) = x := hcanon x hx₀
    have hv' : G.typedValueToString (G.setTypedValue v) = v := hval v
    have hs' : isSensitivePath x cfg.deny = false := by simpa using hs
    rw [hcanon x hx₀, t.lookup_of_leaf hv, row_leaf hdeny hx hv]
    simp [GnmiServer.leafRow, GnmiServer.leafUpdate, LocalGnmiSink.updateRow, hx', hv', hs']
  unfold GnmiServer.rowsOf
  rw [List.flatMap_congr hrow, ← List.map_eq_flatMap]

/-- A row of the local sink never says that a path was not found. -/
theorem error_ne_of_mem_rowsOf {r : GnmiPathResult} {xs : List Text}
    (h : r ∈ GnmiServer.rowsOf G cfg t xs) : r.error ≠ "not found".toList := by
  obtain ⟨x, -, hr⟩ := List.mem_flatMap.1 h
  obtain ⟨e, -, rfl⟩ := List.mem_map.1 hr
  unfold GnmiServer.leafRow LocalGnmiSink.updateRow
  simp only
  split
  · exact (by decide : "sensitive path denied".toList ≠ "not found".toList)
  · exact (by decide : [] ≠ "not found".toList)

/-- A read of leaves, after the paths that are denied. -/
theorem get_eq (hval : ∀ v, G.rendered v = v) (hdeny : cfg.deny = defaultDenyTokens)
    (hne : xpaths ≠ []) (hcanon : ∀ x ∈ xpaths, G.canon x = x) (h : LeafRead cfg t xpaths) :
    get t.kv xpaths = GnmiServer.sinkGet G cfg t xpaths := by
  obtain ⟨hleaf, hfirst⟩ := h
  rw [GnmiServer.sinkGet_eq, get, deniedRows_eq t hdeny]
  simp only
  rw [rowsOf_eq hval hdeny hcanon hleaf]
  by_cases hasked : LocalGnmiSink.asked cfg xpaths = []
  · have hrefused : xpaths = LocalGnmiSink.refused cfg xpaths := by
      rwa [hasked, List.append_nil] at hfirst
    simp only [if_pos hasked, ← hrefused]
    simp [hne]
  · simp only [if_neg hasked, List.map_eq_nil_iff, ← List.map_append, ← hfirst]

/-- **The two backends answer a read alike** exactly where it is a read of
leaves, after the paths that are denied. -/
theorem get_eq_iff (hval : ∀ v, G.rendered v = v) (hdeny : cfg.deny = defaultDenyTokens)
    (hne : xpaths ≠ []) (hcanon : ∀ x ∈ xpaths, G.canon x = x) :
    get t.kv xpaths = GnmiServer.sinkGet G cfg t xpaths ↔ LeafRead cfg t xpaths := by
  refine ⟨fun heq => ?_, get_eq hval hdeny hne hcanon⟩
  rw [GnmiServer.sinkGet_eq, get, deniedRows_eq t hdeny] at heq
  by_cases hasked : LocalGnmiSink.asked cfg xpaths = []
  · refine ⟨by simp [hasked], ?_⟩
    rw [hasked, List.append_nil, LocalGnmiSink.refused, List.filter_eq_self.2]
    intro x hx
    have := List.filter_eq_nil_iff.1 hasked x hx
    simpa using this
  · simp only [if_neg hasked] at heq
    by_cases hrows : GnmiServer.rowsOf G cfg t (LocalGnmiSink.asked cfg xpaths) = []
    · rw [if_pos hrows] at heq
      exact absurd (congrArg GnmiResult.ok heq) Bool.noConfusion
    · rw [if_neg hrows] at heq
      have hpaths := congrArg GnmiResult.paths heq
      simp only at hpaths
      have hleaf : ∀ x ∈ LocalGnmiSink.asked cfg xpaths, x ∈ t.kv := by
        intro x hx
        by_contra habsent
        have hmem : row t.kv x ∈ xpaths.map (row t.kv) :=
          List.mem_map_of_mem (List.mem_of_mem_filter hx)
        rw [hpaths, row_absent hdeny hx habsent] at hmem
        rcases List.mem_append.1 hmem with hmem | hmem
        · obtain ⟨y, hy, hrow⟩ := List.mem_map.1 hmem
          rw [row_refused hdeny hy] at hrow
          have herr : "sensitive path denied".toList = "not found".toList :=
            congrArg GnmiPathResult.error hrow
          exact absurd herr (by decide)
        · exact error_ne_of_mem_rowsOf hmem rfl
      refine ⟨hleaf, ?_⟩
      rw [rowsOf_eq hval hdeny hcanon hleaf, ← List.map_append] at hpaths
      have := congrArg (List.map GnmiPathResult.xpath) hpaths
      rwa [map_row_xpath, map_row_xpath] at this

/-- The leaves it writes, as writes of the tree. -/
theorem set_foldl (updates : List (Text × Text)) :
    (⟨updates.foldl (fun tree p => tree.insert p.1 p.2) t.kv⟩ : GnmiTree) =
      updates.foldl (fun t p => t.set p.1 p.2) t := by
  induction updates generalizing t with
  | nil => rfl
  | cons p updates ih =>
    rw [List.foldl_cons, List.foldl_cons]
    exact ih (t := t.set p.1 p.2)

theorem set_eq (hval : ∀ v, G.rendered v = v) (hrole : cfg.setRole = "ADMIN".toList)
    {updates : List (Text × Text)} (hcanon : ∀ p ∈ updates, G.canon p.1 = p.1) :
    ((set t.kv updates).1, (⟨(set t.kv updates).2⟩ : GnmiTree)) =
      GnmiServer.sinkSet G cfg t updates := by
  have hwrite : ∀ t : GnmiTree, ∀ p ∈ updates, t.set p.1 p.2 = GnmiServer.write G t p := by
    intro t p hp
    rw [GnmiServer.write, hcanon p hp, hval]
  have hpaths : (updates.map fun p => (⟨p.1, [], []⟩ : GnmiPathResult)) =
      updates.map fun p => ⟨G.canon p.1, [], []⟩ :=
    List.map_congr_left fun p hp => by rw [hcanon p hp]
  rw [GnmiServer.sinkSet_eq, if_pos hrole]
  simp only [set]
  rw [hpaths, set_foldl, List.foldl_ext _ _ _ hwrite]

end MemGnmiSink

/-! ## Two bridges with different backends -/

namespace Bridge

variable {σ τ : Type} (B : Bridge σ) {view : σ → τ}

/-- The bridge over another backend. -/
def withSink (sink : GnmiSink σ) : Bridge σ := { B with gex := { B.gex with sink := sink } }

/-- The backends do the same when they are called as `c` says, in any world
that shows what `s` does. -/
def SameCall (view : σ → τ) (sink : GnmiSink σ) (s : σ) : Call → Prop
  | .get xs => ∀ s₁, view s₁ = view s → sink.get xs s₁ = B.gex.sink.get xs s₁
  | .set us => ∀ s₁, view s₁ = view s → sink.set us s₁ = B.gex.sink.set us s₁
  | _ => True

/-- The executor does the same, if the backends do when it calls them. -/
theorem Apart.handle_withSink {B : Bridge σ} (h : B.Apart view) {sink : GnmiSink σ}
    {sender : Text} {s : σ} {g : GnmiCommand} {w : σ × List Call} (hview : view w.1 = view s)
    (hsame : ∀ c ∈ (B.gex.handle g sender w).2.2, B.SameCall view sink s c) :
    (B.withSink sink).gex.handle g sender w = B.gex.handle g sender w := by
  have haccess : (B.withSink sink).gex.access sender w = B.gex.access sender w := rfl
  have hw : view (B.gex.access sender w).2.1 = view s := (h.access sender w).trans hview
  by_cases hget : g.kind = .get ∧ (B.gex.access sender w).1 ≠ .none
  · have hc : B.SameCall view sink s (.get g.xpaths) := by
      rw [B.gex.handle_read hget.1 hget.2] at hsame
      exact hsame _ (List.mem_append_right _ (List.mem_singleton_self _))
    rw [B.gex.handle_read hget.1 hget.2,
      (B.withSink sink).gex.handle_read hget.1 (haccess ▸ hget.2), haccess]
    rw [show (B.withSink sink).gex.sink.get g.xpaths (B.gex.access sender w).2.1 = _ from hc _ hw]
  by_cases hset : g.kind = .set ∧ (B.gex.access sender w).1 = .admin
  · have hc : B.SameCall view sink s (.set g.updates) := by
      rw [B.gex.handle_write hset.1 hset.2] at hsame
      exact hsame _ (List.mem_append_right _ (List.mem_singleton_self _))
    rw [B.gex.handle_write hset.1 hset.2,
      (B.withSink sink).gex.handle_write hset.1 (haccess ▸ hset.2), haccess]
    rw [show (B.withSink sink).gex.sink.set g.updates (B.gex.access sender w).2.1 = _ from hc _ hw]
  · rw [B.gex.handle_idle hget hset,
      (B.withSink sink).gex.handle_idle (haccess ▸ hget) (haccess ▸ hset), haccess]

/-- **One message** is processed alike, if the backends do the same when
they are called as it calls them. -/
theorem Apart.onSms_withSink {B : Bridge σ} (h : B.Apart view) {sink : GnmiSink σ} {m : InboundSms}
    {s : σ} (hsame : ∀ c ∈ (B.onSms m (s, [])).2.2, B.SameCall view sink s c) :
    (B.withSink sink).onSms m (s, []) = B.onSms m (s, []) := by
  have hallowed : (B.withSink sink).allowed m.sender (s, []) = B.allowed m.sender (s, []) := rfl
  by_cases ha : (B.allowed m.sender (s, [])).1 = true
  · -- both read the body the same, so they part at the executor if anywhere
    obtain ⟨toks, w, hw⟩ : ∃ toks w, B.tokens m.text (B.allowed m.sender (s, [])).2 = (toks, w) :=
      ⟨_, _, rfl⟩
    have hview : view w.1 = view s := by
      have htok := h.tokens m.text (B.allowed m.sender (s, [])).2
      rw [hw] at htok
      exact htok.trans (h.allowed m.sender (s, []))
    have hB : B.onSms m (s, []) = B.dispatch m (parseGnmi toks) w := by
      simp [Bridge.onSms, ha, hw]
    have hK : (B.withSink sink).onSms m (s, []) =
        (B.withSink sink).dispatch m (parseGnmi toks) w := by
      have hw' : (B.withSink sink).tokens m.text (B.allowed m.sender (s, [])).2 = (toks, w) := hw
      simp [Bridge.onSms, hallowed, ha, hw']
    rw [hB] at hsame
    rw [hB, hK]
    unfold Bridge.dispatch at hsame ⊢
    by_cases hg : (parseGnmi toks).kind = .notGnmi
    · rw [if_neg (not_not_intro hg), if_neg (not_not_intro hg)]
      rfl
    · rw [if_pos hg] at hsame
      rw [if_pos hg, if_pos hg]
      have hcall : ∀ c ∈ (B.gex.handle (parseGnmi toks) m.sender w).2.2,
          B.SameCall view sink s c := by
        intro c hc
        obtain ⟨S, -, hS⟩ := B.reply_trace m (B.gex.handle (parseGnmi toks) m.sender w).1
          (B.gex.handle (parseGnmi toks) m.sender w).2
        exact hsame c (by rw [traced_bind, hS]; exact List.mem_append_left _ hc)
      have hhandle := h.handle_withSink hview hcall
      rw [traced_bind, traced_bind, hhandle]
      rfl
  · simp [Bridge.onSms, hallowed, ha]

end Bridge

namespace Surroundings

variable {ε : Type}

/-- The in-memory sink, over the tree of the world. -/
def memSink : GnmiSink (ε × GnmiTree) where
  get xpaths w := (MemGnmiSink.get w.2.kv xpaths, w)
  set updates w :=
    ((MemGnmiSink.set w.2.kv updates).1, w.1, ⟨(MemGnmiSink.set w.2.kv updates).2⟩)

/-- A call the two backends answer alike over `t`: a read of leaves after
what is denied, or a write, of xpaths in the server's spelling. -/
def Plain (G : GnmiUtil) (cfg : LocalSinkConfig) (t : GnmiTree) : Call → Prop
  | .get xpaths => (∀ x ∈ xpaths, G.canon x = x) ∧ LeafRead cfg t xpaths
  | .set updates => ∀ p ∈ updates, G.canon p.1 = p.1
  | _ => True

variable (X : Surroundings ε) {G : GnmiUtil} {cfg : LocalSinkConfig}

/-- **One message.** -/
theorem onSms_memSink (hval : ∀ v, G.rendered v = v) (hdeny : cfg.deny = defaultDenyTokens)
    (hrole : cfg.setRole = "ADMIN".toList) {w : ε × GnmiTree} {m : InboundSms}
    (h : ∀ c ∈ ((X.bridge G cfg).onSms m (w, [])).2.2, Plain G cfg w.2 c) :
    ((X.bridge G cfg).withSink memSink).onSms m (w, []) = (X.bridge G cfg).onSms m (w, []) := by
  refine X.bridge_apart.onSms_withSink fun c hc => ?_
  have hguarded := ((X.bridge G cfg).onSms_trace m w).guarded
  have hplain := h c hc
  cases c with
  | get xpaths =>
    intro w₁ hw₁
    obtain ⟨hcanon, hleaf⟩ := hplain
    obtain ⟨toks, -, -, -, -, -, -, -, hk, rfl⟩ := hguarded.get_authorised _ hc
    have := MemGnmiSink.get_eq hval hdeny (xpaths_ne_nil hk) hcanon hleaf
    rw [← show w₁.2 = w.2 from hw₁] at this
    exact congrArg (·, w₁) this
  | set updates =>
    intro w₁ hw₁
    have := MemGnmiSink.set_eq (t := w₁.2) hval hrole hplain
    exact congrArg (fun r => (r.1, w₁.1, r.2)) this
  | _ => trivial

/-- **The bridge cannot tell the two backends apart** while its messages
ask for leaves and write in the server's spelling: it makes the same calls,
so it sends the same replies, and the trees stay the same. -/
theorem sims_agree (hval : ∀ v, G.rendered v = v) (hdeny : cfg.deny = defaultDenyTokens)
    (hrole : cfg.setRole = "ADMIN".toList) {w : ε × GnmiTree} {ms : List InboundSms}
    (h : ∀ pre m post, ms = pre ++ m :: post →
      ∀ c ∈ ((X.bridge G cfg).onSms m ((X.bridge G cfg).after w pre, [])).2.2,
        Plain G cfg ((X.bridge G cfg).after w pre).2 c) :
    ((X.bridge G cfg).withSink memSink).run w ms = (X.bridge G cfg).run w ms ∧
      ((X.bridge G cfg).withSink memSink).after w ms = (X.bridge G cfg).after w ms := by
  induction ms generalizing w with
  | nil => exact ⟨rfl, rfl⟩
  | cons m ms ih =>
    have hone : ((X.bridge G cfg).withSink memSink).onSms m (w, []) =
        (X.bridge G cfg).onSms m (w, []) := X.onSms_memSink hval hdeny hrole (h [] m ms rfl)
    obtain ⟨hrun, hafter⟩ := ih
      fun pre m' post hms => h (m :: pre) m' post (by rw [hms]; rfl)
    refine ⟨?_, ?_⟩
    · simp only [Bridge.run, hone, hrun]
    · simp only [Bridge.after, hone, hafter]

end Surroundings

/-! A read of a denied leaf and of one that is shown, and a session that
writes two leaves and reads them. -/

theorem MemGnmiSink.get_eq_iff_denied :
    MemGnmiSink.get (Demo.tree "hunter2").kv
        ["/system/aaa/password".toList, "/system/config/hostname".toList] =
      GnmiServer.sinkGet compactUtil {} (Demo.tree "hunter2")
        ["/system/aaa/password".toList, "/system/config/hostname".toList] ↔
      LeafRead {} (Demo.tree "hunter2")
        ["/system/aaa/password".toList, "/system/config/hostname".toList] :=
  MemGnmiSink.get_eq_iff GnmiServer.compactUtil_rendered rfl (by decide) (by decide)

namespace Demo

def session : List InboundSms :=
  [⟨"+15551230000".toList, "IOT GNMI SET /a,/b 1,2".toList, []⟩,
    ⟨"+15551230000".toList, "IOT GNMI GET /b,/a".toList, []⟩]

/-- Its calls are plain. -/
theorem plain_session (pre : List InboundSms) (m : InboundSms) (post : List InboundSms)
    (h : session = pre ++ m :: post) :
    ∀ c ∈ (device.onSms m (device.after ((), tree "hunter2") pre, [])).2.2,
      Surroundings.Plain compactUtil {} (device.after ((), tree "hunter2") pre).2 c := by
  have hset : (device.onSms session[0] (device.after ((), tree "hunter2") [], [])).2.2 =
      [.allow "+15551230000".toList true,
        .tokenize session[0].text (session[0].text.splitOn ' '),
        .auth "+15551230000".toList .admin,
        .set [("/a".toList, "1".toList), ("/b".toList, "2".toList)],
        .send "+15551230000".toList "OK GNMI SET 2 path(s) updated".toList] := by decide +kernel
  have hget : (device.onSms session[1]
      (device.after ((), tree "hunter2") [session[0]], [])).2.2 =
      [.allow "+15551230000".toList true,
        .tokenize session[1].text (session[1].text.splitOn ' '),
        .auth "+15551230000".toList .admin,
        .get ["/b".toList, "/a".toList],
        .send "+15551230000".toList "OK GNMI GET /b=2; /a=1".toList] := by decide +kernel
  intro c hc
  match pre with
  | [] =>
    obtain rfl : session[0] = m := (List.cons.inj h).1
    rw [hset] at hc
    simp only [List.mem_cons, List.not_mem_nil, or_false] at hc
    rcases hc with rfl | rfl | rfl | rfl | rfl
    case inr.inr.inr.inl =>
      exact (by decide : ∀ p ∈ [("/a".toList, "1".toList), ("/b".toList, "2".toList)],
        compactUtil.canon p.1 = p.1)
    all_goals trivial
  | [m₀] =>
    obtain ⟨rfl, htail⟩ : session[0] = m₀ ∧ [session[1]] = m :: post := List.cons.inj h
    obtain rfl : session[1] = m := (List.cons.inj htail).1
    rw [hget] at hc
    simp only [List.mem_cons, List.not_mem_nil, or_false] at hc
    rcases hc with rfl | rfl | rfl | rfl | rfl
    case inr.inr.inr.inl => exact ⟨by decide, by decide +kernel, by decide⟩
    all_goals trivial
  | _ :: _ :: pre => simp [session] at h

end Demo

theorem Surroundings.sims_agree_session :
    (Demo.device.withSink Surroundings.memSink).run ((), Demo.tree "hunter2") Demo.session =
        Demo.device.run ((), Demo.tree "hunter2") Demo.session ∧
      (Demo.device.withSink Surroundings.memSink).after ((), Demo.tree "hunter2") Demo.session =
        Demo.device.after ((), Demo.tree "hunter2") Demo.session :=
  Demo.surroundings.sims_agree GnmiServer.compactUtil_rendered rfl rfl Demo.plain_session

end ZeroTouch
