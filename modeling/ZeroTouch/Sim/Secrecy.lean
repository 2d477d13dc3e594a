import ZeroTouch.Bridge
import ZeroTouch.Common.Relational
import ZeroTouch.Gnmi.Secrecy
import ZeroTouch.Sim.Server
/-!
# What the replies of a run reveal

The bridge and the gnmi executor over the sink and the simulated device's
tree. A run is compared with the run from another tree, one with the same
keys and the same values at every path that is not sensitive: message by
message the bridge makes the same calls, so it sends the same replies.
The trees stay alike although writes change them, since both runs make
the same writes.
-/

namespace ZeroTouch

/-! ## Two runs of the bridge -/

section

variable {σ α : Type} {R : σ → σ → Prop}

/-- Related worlds in which the same calls were made. -/
def SameCalls (R : σ → σ → Prop) (w w' : σ × List Call) : Prop := R w.1 w'.1 ∧ w.2 = w'.2

/-- A call of something that respects a relation is recorded the same. -/
theorem respects_call {c : α → Call} {f : σ → α × σ} (hf : Respects R f) :
    Respects (SameCalls R) (call c f) := by
  rintro ⟨s, cs⟩ ⟨s', cs'⟩ ⟨hs, hcs⟩
  obtain ⟨ha, hs'⟩ := hf s s' hs
  refine ⟨ha, hs', ?_⟩
  change cs ++ [c (f s).1] = cs' ++ [c (f s').1]
  rw [show cs = cs' from hcs, ha]

/-- Everything the bridge is handed respects the relation. -/
structure Bridge.Uniform (B : Bridge σ) (R : σ → σ → Prop) : Prop where
  allow : ∀ f ∈ B.allow, ∀ sender, Respects R (f sender)
  tok : ∀ f ∈ B.tok, ∀ text, Respects R (f text)
  auth : ∀ f ∈ B.gex.auth, ∀ sender, Respects R (f sender)
  get : ∀ xpaths, Respects R (B.gex.sink.get xpaths)
  set : ∀ updates, Respects R (B.gex.sink.set updates)
  fallback : ∀ f ∈ B.fallback, ∀ sender text, Respects R (f sender text)
  send : ∀ recipient text, Respects R (B.send recipient text)

namespace Bridge.Uniform

variable {B : Bridge σ} (h : B.Uniform R)

include h

theorem access (sender : Text) : Respects (SameCalls R) (B.gex.access sender) := by
  unfold GnmiExecutor.access
  split
  · next auth hauth => exact respects_call (h.auth auth hauth sender)
  · exact .pure _

theorem handle (cmd : GnmiCommand) (sender : Text) :
    Respects (SameCalls R) (B.gex.handle cmd sender) := by
  unfold GnmiExecutor.handle
  refine .bind (h.access sender) fun access => ?_
  split
  · exact .pure _
  · exact .pure _
  · split
    · exact .pure _
    · exact .bind (respects_call (h.get _)) fun r => .pure _
  · split
    · exact .pure _
    · exact .bind (respects_call (h.set _)) fun r => .pure _

theorem reply (sender text : Text) : Respects (SameCalls R) (B.reply sender text) := by
  unfold Bridge.reply
  split
  · exact .pure _
  · exact .bind (respects_call (h.send sender text)) fun _ => .pure _

theorem dispatch (m : InboundSms) (g : GnmiCommand) :
    Respects (SameCalls R) (B.dispatch m g) := by
  unfold Bridge.dispatch
  split
  · exact .bind (h.handle g m.sender) fun text => h.reply m.sender text
  · split
    · next fallback hfallback =>
      exact .bind (respects_call (h.fallback fallback hfallback m.sender m.text)) fun text =>
        h.reply m.sender text
    · exact .pure _

/-- **One message.** -/
theorem onSms (m : InboundSms) : Respects (SameCalls R) (B.onSms m) := by
  have hallowed : Respects (SameCalls R) (B.allowed m.sender) := by
    unfold Bridge.allowed
    split
    · next allow hallow => exact respects_call (h.allow allow hallow m.sender)
    · exact .pure _
  have htokens : Respects (SameCalls R) (B.tokens m.text) := by
    unfold Bridge.tokens
    split
    · next tok htok => exact respects_call (h.tok tok htok m.text)
    · exact .pure _
  unfold Bridge.onSms
  refine .bind hallowed fun allowed => ?_
  split
  · exact .pure _
  · exact .bind htokens fun tokens => h.dispatch m _

/-- **A run.** Each message leaves related worlds to the next. -/
theorem run_eq {s s' : σ} (hs : R s s') (ms : List InboundSms) : B.run s ms = B.run s' ms := by
  induction ms generalizing s s' with
  | nil => rfl
  | cons m ms ih =>
    obtain ⟨-, hs', hcalls⟩ := h.onSms m (s, []) (s', []) ⟨hs, rfl⟩
    simp only [Bridge.run]
    rw [hcalls, ih hs']

end Bridge.Uniform

end

/-! ## Trees that differ where no one may look -/

/-- The trees have the same keys, and the same values at every key that is
not sensitive. -/
structure GnmiTree.Alike (deny : List Text) (t t' : GnmiTree) : Prop where
  keys : ∀ k, k ∈ t.kv ↔ k ∈ t'.kv
  values : ∀ k, isSensitivePath k deny = false → t.kv[k]? = t'.kv[k]?

/-- Every key of the tree is the xpath the server knows it by. -/
def GnmiTree.Canonical (G : GnmiUtil) (t : GnmiTree) : Prop := ∀ k ∈ t.kv, G.canon k = k

/-- The part of a leaf that may be shown. -/
def TreeEntry.shown (deny : List Text) (e : TreeEntry) : TreeEntry :=
  if isSensitivePath e.xpath deny then ⟨e.xpath, []⟩ else e

namespace GnmiTree

variable {G : GnmiUtil} {deny : List Text} {t t' : GnmiTree}

/-- The tree with every other value blank. -/
def masked (deny : List Text) (t : GnmiTree) : GnmiTree :=
  ⟨t.kv.map fun k v => if isSensitivePath k deny then [] else v⟩

/-- A read of the masked tree is the masked read. -/
theorem lookup_masked (xpath : Text) :
    (t.masked deny).lookup xpath = (t.lookup xpath).map (TreeEntry.shown deny) := by
  have hshown : ∀ k v, (⟨k, if isSensitivePath k deny then [] else v⟩ : TreeEntry) =
      TreeEntry.shown deny ⟨k, v⟩ := by
    intro k v
    unfold TreeEntry.shown
    split <;> rfl
  unfold lookup
  simp only [masked, Std.ExtTreeMap.getElem?_map]
  cases t.kv[xpath]? with
  | some v => simp [hshown]
  | none =>
    simp only [Option.map_none, subtree, Std.ExtTreeMap.toList_map, List.filter_map, List.map_map]
    exact List.map_congr_left fun e _ => hshown e.1 e.2

/-- Alike trees are the same tree, masked. -/
theorem Alike.masked_eq (h : Alike deny t t') : t.masked deny = t'.masked deny := by
  unfold masked
  congr 1
  ext k : 1
  simp only [Std.ExtTreeMap.getElem?_map]
  by_cases hk : isSensitivePath k deny = true
  · have hmem : (t.kv[k]?).isSome = (t'.kv[k]?).isSome := by
      rw [Bool.eq_iff_iff, ← Std.ExtTreeMap.mem_iff_isSome_getElem?,
        ← Std.ExtTreeMap.mem_iff_isSome_getElem?]
      exact h.keys k
    cases ht : t.kv[k]? <;> cases ht' : t'.kv[k]? <;> simp_all
  · rw [h.values k (by simpa using hk)]

theorem Alike.set (h : Alike deny t t') (xpath value : Text) :
    Alike deny (t.set xpath value) (t'.set xpath value) where
  keys k := by simp [GnmiTree.set, h.keys k]
  values k hk := by rw [getElem?_set, getElem?_set, h.values k hk]

theorem Canonical.set (h : Canonical G t) {xpath : Text} (hx : G.canon xpath = xpath)
    (value : Text) : Canonical G (t.set xpath value) := by
  intro k hk
  rcases Std.ExtTreeMap.mem_insert.1 hk with hk | hk
  · rw [← Std.LawfulEqCmp.eq_of_compare hk, hx]
  · exact h k hk

end GnmiTree

namespace GnmiServer

variable {G : GnmiUtil} {cfg : LocalSinkConfig} {t t' : GnmiTree}

/-- A row tells nothing of a leaf but what may be shown. -/
theorem leafRow_shown {e : TreeEntry} (he : G.canon e.xpath = e.xpath) :
    leafRow G cfg (e.shown cfg.deny) = leafRow G cfg e := by
  unfold GnmiUtil.canon at he
  unfold TreeEntry.shown
  split
  · next hs => simp only [leafRow, leafUpdate, LocalGnmiSink.updateRow, he, if_pos hs]
  · rfl

/-- So the rows of a tree with canonical keys are the masked tree's. -/
theorem rowsOf_masked (ht : t.Canonical G) (xpaths : List Text) :
    rowsOf G cfg (t.masked cfg.deny) xpaths = rowsOf G cfg t xpaths := by
  unfold rowsOf
  congr 1
  funext xp
  rw [GnmiTree.lookup_masked, List.map_map]
  refine List.map_congr_left fun e he => leafRow_shown (ht e.xpath ?_)
  rw [Std.ExtTreeMap.mem_iff_isSome_getElem?, t.mem_of_mem_lookup he]
  rfl

variable (G cfg)

/-- The trees two runs may be in: alike, with canonical keys. -/
structure Indistinct (t t' : GnmiTree) : Prop where
  alike : t.Alike cfg.deny t'
  left : t.Canonical G
  right : t'.Canonical G

variable {G cfg}

/-- **A read is answered the same.** -/
theorem Indistinct.sinkGet_eq (h : Indistinct G cfg t t') (xpaths : List Text) :
    sinkGet G cfg t xpaths = sinkGet G cfg t' xpaths := by
  have hrows : ∀ xs, rowsOf G cfg t xs = rowsOf G cfg t' xs := by
    intro xs
    rw [← rowsOf_masked h.left, ← rowsOf_masked h.right, h.alike.masked_eq]
  simp only [GnmiServer.sinkGet_eq, hrows]

theorem Indistinct.write (hidem : ∀ x, G.canon (G.canon x) = G.canon x) (h : Indistinct G cfg t t')
    (p : Text × Text) : Indistinct G cfg (write G t p) (write G t' p) where
  alike := h.alike.set _ _
  left := h.left.set (hidem p.1) _
  right := h.right.set (hidem p.1) _

theorem Indistinct.writes (hidem : ∀ x, G.canon (G.canon x) = G.canon x)
    (h : Indistinct G cfg t t') (updates : List (Text × Text)) :
    Indistinct G cfg (updates.foldl (GnmiServer.write G) t)
      (updates.foldl (GnmiServer.write G) t') := by
  induction updates generalizing t t' with
  | nil => exact h
  | cons p updates ih => exact ih (h.write hidem p)

/-- **A write is answered the same, and the trees stay indistinct.** -/
theorem Indistinct.sinkSet_eq (hidem : ∀ x, G.canon (G.canon x) = G.canon x)
    (h : Indistinct G cfg t t') (updates : List (Text × Text)) :
    (sinkSet G cfg t updates).1 = (sinkSet G cfg t' updates).1 ∧
      Indistinct G cfg (sinkSet G cfg t updates).2 (sinkSet G cfg t' updates).2 := by
  rw [GnmiServer.sinkSet_eq, GnmiServer.sinkSet_eq]
  split
  · exact ⟨rfl, h.writes hidem updates⟩
  · exact ⟨rfl, h⟩

end GnmiServer

/-! ## The whole device -/

/-- What the bridge is handed apart from the backend, over a world of its
own. An answer may depend on everything asked before it. -/
structure Surroundings (ε : Type) where
  allow : Option (Text → ε → Bool × ε)
  tok : Option (Text → ε → List Text × ε)
  auth : Option (Text → ε → Access × ε)
  fallback : Option (Text → Text → ε → Text × ε)
  send : Text → Text → ε → Bool × ε

namespace Surroundings

variable {ε α : Type}

/-- What acts on the surroundings leaves the tree alone. -/
def beside (f : ε → α × ε) (w : ε × GnmiTree) : α × ε × GnmiTree :=
  ((f w.1).1, (f w.1).2, w.2)

/-- The bridge and the gnmi executor over the sink and the device's tree. -/
def bridge (X : Surroundings ε) (G : GnmiUtil) (cfg : LocalSinkConfig) :
    Bridge (ε × GnmiTree) where
  gex :=
    { sink :=
        { get := fun xpaths w => (GnmiServer.sinkGet G cfg w.2 xpaths, w)
          set := fun updates w =>
            ((GnmiServer.sinkSet G cfg w.2 updates).1, w.1,
              (GnmiServer.sinkSet G cfg w.2 updates).2) }
      auth := X.auth.map fun f sender => beside (f sender) }
  send recipient text := beside (X.send recipient text)
  tok := X.tok.map fun f text => beside (f text)
  fallback := X.fallback.map fun f sender text => beside (f sender text)
  allow := X.allow.map fun f sender => beside (f sender)

variable {G : GnmiUtil} {cfg : LocalSinkConfig}

/-- Two runs are in the same surroundings, with indistinct trees. -/
def Matched (G : GnmiUtil) (cfg : LocalSinkConfig) (w w' : ε × GnmiTree) : Prop :=
  w.1 = w'.1 ∧ GnmiServer.Indistinct G cfg w.2 w'.2

theorem respects_beside (f : ε → α × ε) : Respects (Matched G cfg) (beside f) := by
  rintro ⟨e, t⟩ ⟨e', t'⟩ ⟨he, ht⟩
  obtain rfl : e = e' := he
  exact ⟨rfl, rfl, ht⟩

theorem respects_of_mem_map {ι : Type} {o : Option (ι → ε → α × ε)}
    {f : ι → ε × GnmiTree → α × ε × GnmiTree} (hf : f ∈ o.map fun g i => beside (g i)) (i : ι) :
    Respects (Matched G cfg) (f i) := by
  obtain ⟨g, -, rfl⟩ := Option.map_eq_some_iff.1 hf
  exact respects_beside _

/-- The whole device respects the difference. -/
theorem bridge_uniform (X : Surroundings ε) (hidem : ∀ x, G.canon (G.canon x) = G.canon x) :
    (X.bridge G cfg).Uniform (Matched G cfg) where
  allow _ hf sender := respects_of_mem_map hf sender
  tok _ hf text := respects_of_mem_map hf text
  auth _ hf sender := respects_of_mem_map hf sender
  get xpaths := fun w w' h => ⟨h.2.sinkGet_eq xpaths, h⟩
  set updates := fun w w' h => by
    obtain ⟨hres, htree⟩ := h.2.sinkSet_eq hidem updates
    exact ⟨hres, h.1, htree⟩
  fallback f hf sender text := by
    obtain ⟨g, -, rfl⟩ := Option.map_eq_some_iff.1 hf
    exact respects_beside _
  send recipient text := respects_beside _

end Surroundings

/-- The reply SMS of a run, in order, each with its recipient. -/
def Bridge.replies (run : List (InboundSms × List Call)) : List Call :=
  (run.flatMap Prod.snd).filter Call.isSend

/-- **The replies tell nothing of the sensitive values.** -/
theorem replies_eq_of_alike {ε : Type} (X : Surroundings ε) (G : GnmiUtil) (cfg : LocalSinkConfig)
    (hidem : ∀ x, G.canon (G.canon x) = G.canon x) {t t' : GnmiTree} (hkeys : t.Canonical G)
    (h : t.Alike cfg.deny t') (e : ε) (ms : List InboundSms) :
    Bridge.replies ((X.bridge G cfg).run (e, t) ms) =
      Bridge.replies ((X.bridge G cfg).run (e, t') ms) := by
  have hkeys' : t'.Canonical G := fun k hk => hkeys k ((h.keys k).2 hk)
  have hmatched : Surroundings.Matched G cfg (e, t) (e, t') := ⟨rfl, h, hkeys, hkeys'⟩
  rw [(X.bridge_uniform hidem).run_eq hmatched ms]

/-! A session of two messages, from two trees with different passwords. -/

namespace Demo

/-- Everyone is allowed and an admin; a body is split at its blanks. -/
def surroundings : Surroundings Unit where
  allow := some fun _ e => (true, e)
  tok := some fun text e => (text.splitOn ' ', e)
  auth := some fun _ e => (.admin, e)
  fallback := none
  send _ _ e := (true, e)

/-- A tree with a password in it. -/
def tree (password : String) : GnmiTree :=
  (GnmiTree.mk ∅).set "/system/config/hostname".toList "demo-router".toList
    |>.set "/system/aaa/password".toList password.toList

def messages : List InboundSms :=
  [⟨"+15551230000".toList, "IOT GNMI SET /system/config/hostname router-7".toList, []⟩,
    ⟨"+15551230000".toList, "IOT GNMI GET /".toList, []⟩]

/-! The keys of the tree are canonical under `compactUtil`, which parses
what it renders. -/

theorem compactUtil_canon_canon (x : Text) :
    compactUtil.canon (compactUtil.canon x) = compactUtil.canon x := by
  have hcanon : ∀ y, compactUtil.canon y = ((y.splitOn '/').filter (· ≠ [])).flatMap ('/' :: ·) := by
    intro y
    simp [GnmiUtil.canon, compactUtil, renderPath, List.flatMap_map]
  rw [hcanon, hcanon x]
  rw [Text.splitOn_flatMap_cons fun n hn => Text.not_mem_of_mem_splitOn (List.mem_filter.1 hn).1]
  simp

theorem canonical_tree (password : String) : (tree password).Canonical compactUtil := by
  have hempty : (GnmiTree.mk ∅).Canonical compactUtil := by
    intro k hk
    exact absurd hk Std.ExtTreeMap.not_mem_empty
  exact (hempty.set (by decide) _).set (by decide) _

/-- Trees with different passwords are alike. -/
theorem alike_tree (password password' : String) :
    (tree password).Alike defaultDenyTokens (tree password') where
  keys k := by simp [tree, GnmiTree.set]
  values k hk := by
    have hne : "/system/aaa/password".toList ≠ k := by
      rintro rfl
      exact absurd hk (by decide)
    simp only [tree, GnmiTree.getElem?_set, if_neg hne]

end Demo

theorem replies_eq_of_alike_session :
    Bridge.replies ((Demo.surroundings.bridge compactUtil {}).run
        ((), Demo.tree "hunter2") Demo.messages) =
      Bridge.replies ((Demo.surroundings.bridge compactUtil {}).run
        ((), Demo.tree "letmein") Demo.messages) :=
  replies_eq_of_alike Demo.surroundings compactUtil {} Demo.compactUtil_canon_canon
    (Demo.canonical_tree "hunter2") (Demo.alike_tree "hunter2" "letmein") ()
    Demo.messages

/-- The password is read as denied, and the write is read back. -/
example : Bridge.replies ((Demo.surroundings.bridge compactUtil {}).run
    ((), Demo.tree "hunter2") Demo.messages) =
      [.send "+15551230000".toList "OK GNMI SET 1 path(s) updated".toList,
        .send "+15551230000".toList
          ("OK GNMI GET /system/aaa/password=<sensitive path denied>; ".toList ++
            "/system/config/hostname=router-7".toList)] := by
  decide +kernel

end ZeroTouch
