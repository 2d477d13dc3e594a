import ZeroTouch.Common.Spans
import ZeroTouch.Gnmi.LocalSink
/-!
# What a `GET` reply reveals

A leaf's full path is the notification's prefix, the update's path and
the member names down to the leaf. Two responses are alike when blanking
the leaves with a sensitive full path makes them equal, and a reply hides
the secrets of a response when every response like it is answered with
the same text.

The sink screens one rendered string per update, the update's own path.
So a leaf that is sensitive only through the prefix or through a member
name is written out, and the reply hides it only where the cut to one SMS
comes first: `hides_iff` is that condition, exactly. The reply is read as
spans, a secret one for each leaf that is written out and should not be.
-/

namespace ZeroTouch

/-! ## The clamp on a text with secrets -/

section Clamp

/-- **The cut comes before the first secret, whatever the secrets are**:
the text before it fills all of an SMS but the ellipsis, and the rest is
too long even with the secrets blank, or is the ellipsis itself. -/
def CutBeforeSecret (ss : List (Span Char)) : Prop :=
  kMaxReply - 3 ≤ (Span.before ss).length ∧
    (kMaxReply < (Span.blanked ss).length ∨
      (Span.blanked ss).length = kMaxReply ∧ "...".toList <:+ Span.blanked ss)

theorem clampSms_of_le {s : Text} (h : s.length ≤ kMaxReply) : clampSms s = s := if_pos h

theorem clampSms_of_lt {s : Text} (h : kMaxReply < s.length) :
    clampSms s = s.take (kMaxReply - 3) ++ "...".toList := by
  rw [clampSms, if_neg (by omega), if_neg (by decide)]

/-- A text that ends as its cut would is its own cut. -/
theorem eq_take_append_of_suffix {s : Text} (hl : s.length = kMaxReply)
    (hs : "...".toList <:+ s) : s = s.take (kMaxReply - 3) ++ "...".toList := by
  obtain ⟨t, rfl⟩ := hs
  have ht : t.length = kMaxReply - 3 := by
    simp only [List.length_append, kMaxReply] at hl ⊢
    simp at hl
    omega
  rw [← ht, List.take_left]

/-- Past the first secret nothing is read: such a text is clamped to what
stands before it. -/
theorem clampSms_of_cut {ss : List (Span Char)} (h : CutBeforeSecret ss) :
    clampSms (Span.flat ss) = (Span.before ss).take (kMaxReply - 3) ++ "...".toList := by
  obtain ⟨hb, hlen⟩ := h
  have htake : ∀ {s : Text}, Span.before ss <+: s →
      s.take (kMaxReply - 3) = (Span.before ss).take (kMaxReply - 3) := by
    rintro s ⟨t, rfl⟩
    exact List.take_append_of_le_length hb
  have hle := Span.length_blanked_le ss
  rcases Nat.lt_or_ge kMaxReply (Span.flat ss).length with hlong | hshort
  · rw [clampSms_of_lt hlong, htake (Span.before_prefix_flat ss)]
  · -- no longer than an SMS, so it is the blanked text, which ends in the ellipsis
    rcases hlen with hlen | ⟨hlen, hdots⟩
    · omega
    · have heq : Span.flat ss = Span.blanked ss := Span.flat_eq_blanked (by omega)
      rw [clampSms_of_le hshort]
      calc Span.flat ss
          = (Span.flat ss).take (kMaxReply - 3) ++ "...".toList :=
            eq_take_append_of_suffix (by rw [heq, hlen]) (heq ▸ hdots)
        _ = _ := by rw [htake (Span.before_prefix_flat ss)]

/-- The cut reads the shown spans only. -/
theorem cutBeforeSecret_congr {ss ss' : List (Span Char)}
    (h : ss'.map (Span.fill []) = ss.map (Span.fill [])) (hc : CutBeforeSecret ss) :
    CutBeforeSecret ss' := by
  have hb : Span.before ss' = Span.before ss := by
    rw [← Span.before_map_fill [] ss', h, Span.before_map_fill]
  have hp : Span.blanked ss' = Span.blanked ss := by rw [Span.blanked, h, Span.blanked]
  rw [CutBeforeSecret, hb, hp]
  exact hc

/-- **Where nothing is secret, or the cut comes first, filling the secrets
anew changes nothing.** -/
theorem clampSms_eq_of_fill {ss ss' : List (Span Char)}
    (h : ss'.map (Span.fill []) = ss.map (Span.fill []))
    (hc : (∀ s ∈ ss, s.isSecret = false) ∨ CutBeforeSecret ss) :
    clampSms (Span.flat ss') = clampSms (Span.flat ss) := by
  rcases hc with hc | hc
  · have hss : ss = ss' := by
      have hsec : ∀ s ∈ ss', s.isSecret = false := by
        have hmap : ss'.map Span.isSecret = ss.map Span.isSecret := by
          simpa [Function.comp_def] using congrArg (List.map Span.isSecret) h
        intro s hs
        have hmem : s.isSecret ∈ ss.map Span.isSecret := hmap ▸ List.mem_map_of_mem hs
        obtain ⟨t, ht, hts⟩ := List.mem_map.1 hmem
        rw [← hts, hc t ht]
      rw [Span.map_fill_of_shown hsec, Span.map_fill_of_shown hc] at h
      exact h.symm
    rw [hss]
  · rw [clampSms_of_cut hc, clampSms_of_cut (cutBeforeSecret_congr h hc), ← Span.before_map_fill [],
      h, Span.before_map_fill]

/-- **And nowhere else.** A secret within reach of the cut is told apart
by its own first character; one at its edge, by whether there is a cut. -/
theorem shown_or_cut_of_const {ss : List (Span Char)}
    (h : ∀ c, clampSms (Span.flat (ss.map (Span.fill c))) = clampSms (Span.flat ss)) :
    (∀ s ∈ ss, s.isSecret = false) ∨ CutBeforeSecret ss := by
  by_cases hsec : ∃ s ∈ ss, s.isSecret
  · right
    -- a filling longer than an SMS is cut, and what it is cut to starts with it
    have hcut : ∀ c : Text, kMaxReply < c.length →
        clampSms (Span.flat ss) = (Span.before ss ++ c).take (kMaxReply - 3) ++ "...".toList := by
      intro c hc
      obtain ⟨t, ht⟩ := Span.before_append_fill_prefix hsec c
      have hlong : kMaxReply < (Span.flat (ss.map (Span.fill c))).length := by
        rw [← ht]; simp only [List.length_append]; omega
      rw [← h c, clampSms_of_lt hlong, ← ht, List.take_append_of_le_length]
      simp only [List.length_append]; omega
    have hcutA := hcut (List.replicate (kMaxReply + 1) 'a') (by simp)
    have hcutB := hcut (List.replicate (kMaxReply + 1) 'b') (by simp)
    have hbefore : kMaxReply - 3 ≤ (Span.before ss).length := by
      by_contra hlt
      have hab : (Span.before ss ++ List.replicate (kMaxReply + 1) 'a').take (kMaxReply - 3) =
          (Span.before ss ++ List.replicate (kMaxReply + 1) 'b').take (kMaxReply - 3) :=
        List.append_cancel_right (hcutA.symm.trans hcutB)
      -- the first character of the secret stands inside what is kept
      have hget := congrArg (fun l : Text => l[(Span.before ss).length]?) hab
      simp only [List.getElem?_take, if_pos (Nat.lt_of_not_le hlt),
        List.getElem?_append_right (Nat.le_refl _), Nat.sub_self,
        List.getElem?_replicate_of_lt (Nat.succ_pos _)] at hget
      exact absurd hget (by decide)
    refine ⟨hbefore, ?_⟩
    -- the blank filling is answered as a cut one, so it is one or ends as one
    have hblank : clampSms (Span.blanked ss) =
        (Span.before ss).take (kMaxReply - 3) ++ "...".toList := by
      rw [Span.blanked, h [], hcutA, List.take_append_of_le_length hbefore]
    rcases Nat.lt_or_ge kMaxReply (Span.blanked ss).length with hlong | hshort
    · exact .inl hlong
    · right
      rw [clampSms_of_le hshort] at hblank
      refine ⟨?_, ?_⟩
      · rw [hblank]
        simp only [List.length_append, List.length_take, Nat.min_eq_left hbefore]
        decide
      · rw [hblank]; exact List.suffix_append _ _
  · left
    intro s hs
    by_contra hne
    exact hsec ⟨s, hs, by simpa using hne⟩

end Clamp

/-! ## Rendering -/

/-- Set contents into a punctuation: a piece of it before each, and what
is left of it at the end. -/
def weave : List Text → List Text → Text
  | [], cs => cs.flatten
  | p :: ps, [] => p ++ weave ps []
  | p :: ps, c :: cs => p ++ c ++ weave ps cs

/-- **What is relied on of `typed_value_to_string`**: a value is rendered
as the contents of its leaves, in order, set into a text that depends on
its shape alone. -/
structure Rendering (G : GnmiUtil) where
  punctuation : TypedValue → List Text
  renders : ∀ v, G.typedValueToString v = weave (punctuation v.blank) (v.leaves.map Prod.snd)

/-- The same over spans: the punctuation is shown. -/
def weaveSpans : List Text → List (Span Char) → List (Span Char)
  | [], ss => ss
  | p :: ps, [] => .shown p :: weaveSpans ps []
  | p :: ps, s :: ss => .shown p :: s :: weaveSpans ps ss

theorem flat_weaveSpans (ps : List Text) (ss : List (Span Char)) :
    Span.flat (weaveSpans ps ss) = weave ps (ss.map Span.text) := by
  induction ps generalizing ss with
  | nil => simp [weaveSpans, weave, Span.flat, List.flatMap]
  | cons p ps ih => cases ss <;> simp [weaveSpans, weave, ih]

theorem map_fill_weaveSpans (c : Text) (ps : List Text) (ss : List (Span Char)) :
    (weaveSpans ps ss).map (Span.fill c) = weaveSpans ps (ss.map (Span.fill c)) := by
  induction ps generalizing ss with
  | nil => rfl
  | cons p ps ih => cases ss <;> simp [weaveSpans, ih]

theorem shown_weaveSpans {ps : List Text} {ss : List (Span Char)} :
    (∀ s ∈ weaveSpans ps ss, s.isSecret = false) ↔ ∀ s ∈ ss, s.isSecret = false := by
  induction ps generalizing ss with
  | nil => rfl
  | cons p ps ih =>
    cases ss with
    | nil =>
      have hnil : ∀ s ∈ weaveSpans ps [], s.isSecret = false := ih.2 (by simp)
      simpa [weaveSpans] using hnil
    | cons s ss => simp [weaveSpans, ih]

/-- The rows of a reply as spans, separated as `renderRows` separates
them. -/
def joinSpans : Bool → List (List (Span Char)) → List (Span Char)
  | _, [] => []
  | first, r :: rs => .shown (if first then [] else "; ".toList) :: (r ++ joinSpans false rs)

theorem flat_joinSpans {rs : List (List (Span Char))} {ps : List GnmiPathResult}
    (h : rs.map Span.flat = ps.map GnmiPathResult.render) (first : Bool) :
    Span.flat (joinSpans first rs) = renderRows first ps := by
  induction rs generalizing ps first with
  | nil =>
    cases ps with
    | nil => rfl
    | cons p ps => simp at h
  | cons r rs ih =>
    cases ps with
    | nil => simp at h
    | cons p ps =>
      simp only [List.map_cons, List.cons.injEq] at h
      simp [joinSpans, renderRows, h.1, ih h.2]

theorem map_fill_joinSpans (c : Text) (rs : List (List (Span Char))) (first : Bool) :
    (joinSpans first rs).map (Span.fill c) = joinSpans first (rs.map (·.map (Span.fill c))) := by
  induction rs generalizing first with
  | nil => rfl
  | cons r rs ih => simp [joinSpans, ih]

theorem shown_joinSpans {rs : List (List (Span Char))} (first : Bool) :
    (∀ s ∈ joinSpans first rs, s.isSecret = false) ↔ ∀ r ∈ rs, ∀ s ∈ r, s.isSecret = false := by
  induction rs generalizing first with
  | nil => simp [joinSpans]
  | cons r rs ih =>
    simp only [joinSpans, List.mem_cons, List.mem_append, forall_eq_or_imp, Span.isSecret_shown,
      true_and]
    rw [← ih false]
    constructor
    · exact fun h => ⟨fun s hs => h s (.inl hs), fun s hs => h s (.inr hs)⟩
    · rintro ⟨h₁, h₂⟩ s (hs | hs)
      · exact h₁ s hs
      · exact h₂ s hs

/-! ## Secrets of a response -/

section Response

variable (G : GnmiUtil) (cfg : LocalSinkConfig)

/-- The full path of a leaf: the notification's prefix, the update's path,
the member names. -/
def fullPath (n : Notification) (u : GnmiUpdate) (names : List Text) : Text :=
  G.pathToString (n.pathPrefix ++ u.path ++ names.map fun k => ⟨k, []⟩)

/-- Whether a leaf is secret. -/
def secretLeaf (n : Notification) (u : GnmiUpdate) (names : List Text) : Bool :=
  isSensitivePath (fullPath G n u names) cfg.deny

/-- An update with `c` in the place of each of its secrets. -/
def GnmiUpdate.fillSecrets (n : Notification) (c : Text) (u : GnmiUpdate) : GnmiUpdate :=
  { u with val := u.val.fill fun names old => if secretLeaf G cfg n u names then c else old }

/-- A response with `c` in the place of each of its secrets. -/
def GetResponse.fillSecrets (c : Text) (resp : GetResponse) : GetResponse :=
  ⟨resp.notification.map fun n =>
    { n with update := n.update.map (GnmiUpdate.fillSecrets G cfg n c) }⟩

/-- **Alike but for the secrets**: of one shape, and with the same scalars
at every leaf whose full path is not sensitive. -/
def Alike (resp resp' : GetResponse) : Prop :=
  resp'.fillSecrets G cfg [] = resp.fillSecrets G cfg []

/-- The reply to a read that the server answers with `resp`. -/
def getReply (xpaths : List Text) (resp : GetResponse) : Text :=
  formatGet (LocalGnmiSink.get G cfg (fun _ => ⟨0, [], some resp⟩) xpaths)

/-- **The reply hides the secrets of a response.** -/
def Hides (xpaths : List Text) (resp : GetResponse) : Prop :=
  ∀ resp', Alike G cfg resp resp' → getReply G cfg xpaths resp' = getReply G cfg xpaths resp

/-- **Every secret sits under an update whose own path is denied.** -/
def EverySecretDenied (resp : GetResponse) : Prop :=
  ∀ n ∈ resp.notification, ∀ u ∈ n.update,
    isSensitivePath (G.pathToString u.path) cfg.deny = true ∨
      ∀ l ∈ u.val.leaves, secretLeaf G cfg n u l.1 = false

/-- A leaf as a span. -/
def leafSpan (n : Notification) (u : GnmiUpdate) (l : List Text × Text) : Span Char :=
  if secretLeaf G cfg n u l.1 then .secret l.2 else .shown l.2

variable {G} (R : Rendering G)

/-- The row of an update as spans. -/
def updateSpans (n : Notification) (u : GnmiUpdate) : List (Span Char) :=
  let xp := G.pathToString u.path
  if isSensitivePath xp cfg.deny then [.shown (deniedRow xp).render]
  else
    .shown (xp ++ "=".toList) ::
      weaveSpans (R.punctuation u.val.blank) (u.val.leaves.map (leafSpan G cfg n u))

/-- The rows of a reply as spans. -/
def rowSpans (xpaths : List Text) (resp : GetResponse) : List (List (Span Char)) :=
  (LocalGnmiSink.deniedRows cfg xpaths).map (fun p => [.shown p.render]) ++
    resp.notification.flatMap fun n => n.update.map (updateSpans cfg R n)

/-- The reply as spans, before it is clamped. -/
def replySpans (xpaths : List Text) (resp : GetResponse) : List (Span Char) :=
  .shown "OK GNMI GET ".toList :: joinSpans true (rowSpans cfg R xpaths resp)

variable {cfg}

theorem text_leafSpan (n : Notification) (u : GnmiUpdate) (l : List Text × Text) :
    (leafSpan G cfg n u l).text = l.2 := by
  unfold leafSpan; split <;> rfl

/-- The spans of an update's row are the row the sink makes of it. -/
theorem flat_updateSpans (n : Notification) (u : GnmiUpdate) :
    Span.flat (updateSpans cfg R n u) = (LocalGnmiSink.updateRow G cfg u).render := by
  unfold updateSpans LocalGnmiSink.updateRow
  by_cases h : isSensitivePath (G.pathToString u.path) cfg.deny = true
  · simp [h]
  · have hmap : (u.val.leaves.map (leafSpan G cfg n u)).map Span.text =
        u.val.leaves.map Prod.snd := by
      simp only [List.map_map]
      exact List.map_congr_left fun l _ => text_leafSpan n u l
    simp [h, flat_weaveSpans, hmap, GnmiPathResult.render, ← R.renders]

/-- **The spans are the reply.** -/
theorem getReply_eq {xpaths : List Text} (h : LocalGnmiSink.asked cfg xpaths ≠ [])
    (resp : GetResponse) :
    getReply G cfg xpaths resp = clampSms (Span.flat (replySpans cfg R xpaths resp)) := by
  have hrows : (rowSpans cfg R xpaths resp).map Span.flat =
      (LocalGnmiSink.deniedRows cfg xpaths ++ LocalGnmiSink.responseRows G cfg resp).map
        GnmiPathResult.render := by
    simp [rowSpans, LocalGnmiSink.responseRows, List.map_flatMap, Function.comp_def,
      flat_updateSpans]
  have hget : LocalGnmiSink.get G cfg (fun _ => ⟨0, [], some resp⟩) xpaths =
      { ok := true, grpcStatus := 0, grpcMessage := [],
        paths :=
          LocalGnmiSink.deniedRows cfg xpaths ++ LocalGnmiSink.responseRows G cfg resp } := by
    simp [LocalGnmiSink.get, h]
  rw [getReply, hget, formatGet, replySpans, Span.flat_cons, flat_joinSpans hrows]
  simp

theorem val_fillSecrets (n : Notification) (u : GnmiUpdate) (c : Text) :
    (u.fillSecrets G cfg n c).val =
      u.val.fill fun names old => if secretLeaf G cfg n u names then c else old := rfl

@[simp] theorem secretLeaf_fillSecrets (n : Notification) (u : GnmiUpdate) (c : Text)
    (names : List Text) :
    secretLeaf G cfg n (u.fillSecrets G cfg n c) names = secretLeaf G cfg n u names := rfl

/-- A secret leaf filled is a secret span filled. -/
theorem map_leafSpan_fill (n : Notification) (u : GnmiUpdate) (c : Text) :
    (u.fillSecrets G cfg n c).val.leaves.map (leafSpan G cfg n (u.fillSecrets G cfg n c)) =
      (u.val.leaves.map (leafSpan G cfg n u)).map (Span.fill c) := by
  simp only [val_fillSecrets, TypedValue.leaves_fill, List.map_map]
  refine List.map_congr_left fun l _ => ?_
  by_cases h : secretLeaf G cfg n u l.1 = true
  · simp [leafSpan, h]
  · simp [leafSpan, h]

theorem updateSpans_fillSecrets (n : Notification) (u : GnmiUpdate) (c : Text) :
    updateSpans cfg R n (u.fillSecrets G cfg n c) = (updateSpans cfg R n u).map (Span.fill c) := by
  have hpath : (u.fillSecrets G cfg n c).path = u.path := rfl
  have hblank : (u.fillSecrets G cfg n c).val.blank = u.val.blank := by
    rw [val_fillSecrets, TypedValue.blank_fill]
  unfold updateSpans
  rw [hpath, hblank, map_leafSpan_fill]
  by_cases h : isSensitivePath (G.pathToString u.path) cfg.deny = true
  · simp [h]
  · simp [h, map_fill_weaveSpans]

/-- **Filling the secrets of a response fills those of its reply**, and
nothing else of it. -/
theorem replySpans_fillSecrets (xpaths : List Text) (resp : GetResponse) (c : Text) :
    replySpans cfg R xpaths (resp.fillSecrets G cfg c) =
      (replySpans cfg R xpaths resp).map (Span.fill c) := by
  have hup : ∀ n : Notification, ∀ u : GnmiUpdate,
      updateSpans cfg R { n with update := n.update.map (GnmiUpdate.fillSecrets G cfg n c) }
        (u.fillSecrets G cfg n c) = (updateSpans cfg R n u).map (Span.fill c) :=
    fun n u => updateSpans_fillSecrets R n u c
  simp only [replySpans, rowSpans, GetResponse.fillSecrets, List.map_cons, Span.fill_shown,
    map_fill_joinSpans, List.map_append, List.map_map, List.flatMap_map, List.map_flatMap,
    Function.comp_def, hup, List.map_nil]

/-- Filling the secrets twice fills them once, and leaves the rest alone. -/
theorem fillSecrets_fillSecrets (resp : GetResponse) (c d : Text) :
    (resp.fillSecrets G cfg d).fillSecrets G cfg c = resp.fillSecrets G cfg c := by
  simp only [GetResponse.fillSecrets, List.map_map, GetResponse.mk.injEq]
  refine List.map_congr_left fun n _ => ?_
  simp only [Function.comp_apply, List.map_map, Notification.mk.injEq, true_and]
  refine List.map_congr_left fun u _ => ?_
  have hval : ((u.fillSecrets G cfg n d).fillSecrets G cfg n c).val =
      (u.fillSecrets G cfg n c).val := by
    rw [val_fillSecrets, val_fillSecrets, val_fillSecrets, TypedValue.fill_fill]
    refine congrArg (fun f => u.val.fill f) ?_
    funext names old
    by_cases h : secretLeaf G cfg n u names = true <;> simp [h]
  exact congrArg (GnmiUpdate.mk u.path) hval

/-- A reply shows a secret exactly where a response has one outside the
denied updates. -/
theorem shown_replySpans_iff (xpaths : List Text) {resp : GetResponse} :
    (∀ s ∈ replySpans cfg R xpaths resp, s.isSecret = false) ↔ EverySecretDenied G cfg resp := by
  have hleaf : ∀ n u l, (leafSpan G cfg n u l).isSecret = secretLeaf G cfg n u l.1 := by
    intro n u l
    unfold leafSpan
    split <;> simp_all
  have hup : ∀ n u, (∀ s ∈ updateSpans cfg R n u, s.isSecret = false) ↔
      (isSensitivePath (G.pathToString u.path) cfg.deny = true ∨
        ∀ l ∈ u.val.leaves, secretLeaf G cfg n u l.1 = false) := by
    intro n u
    unfold updateSpans
    by_cases h : isSensitivePath (G.pathToString u.path) cfg.deny = true
    · simp [h]
    · simp only [h, Bool.false_eq_true, if_false, List.mem_cons, forall_eq_or_imp,
        Span.isSecret_shown, true_and, shown_weaveSpans, List.forall_mem_map, hleaf, false_or]
  simp only [replySpans, List.mem_cons, forall_eq_or_imp, Span.isSecret_shown, true_and,
    shown_joinSpans, rowSpans, List.mem_append, List.mem_map, List.mem_flatMap, EverySecretDenied]
  constructor
  · intro h n hn u hu
    exact (hup n u).1 (h _ (.inr ⟨n, hn, u, hu, rfl⟩))
  · rintro h r (⟨p, -, rfl⟩ | ⟨n, hn, u, hu, rfl⟩)
    · simp
    · exact (hup n u).2 (h n hn u hu)

/-- **When a `GET` reply hides the secrets of a response, exactly.** Either
nothing is asked of the server, or every secret sits under an update whose
own path is denied, or the cut to one SMS comes before the first secret
that does not. -/
theorem hides_iff (xpaths : List Text) (resp : GetResponse) :
    Hides G cfg xpaths resp ↔
      LocalGnmiSink.asked cfg xpaths = [] ∨ EverySecretDenied G cfg resp ∨
        CutBeforeSecret (replySpans cfg R xpaths resp) := by
  by_cases hask : LocalGnmiSink.asked cfg xpaths = []
  · refine ⟨fun _ => .inl hask, fun _ resp' _ => ?_⟩
    simp [getReply, LocalGnmiSink.get, hask]
  · rw [← shown_replySpans_iff R xpaths]
    constructor
    · intro h
      refine .inr (shown_or_cut_of_const fun c => ?_)
      rw [← replySpans_fillSecrets, ← getReply_eq R hask, ← getReply_eq R hask]
      exact h _ (fillSecrets_fillSecrets resp [] c)
    · rintro (h | h) resp' halike
      · exact absurd h hask
      · rw [getReply_eq R hask, getReply_eq R hask]
        refine clampSms_eq_of_fill ?_ h
        rw [← replySpans_fillSecrets, ← replySpans_fillSecrets, halike]

end Response

/-! ## A renderer, and a leak -/

/-- Join two punctuations: the last piece of one runs into the first of
the other. -/
def glue : List Text → List Text → List Text
  | [], qs => qs
  | [p], [] => [p]
  | [p], q :: qs => (p ++ q) :: qs
  | p :: ps, qs => p :: glue ps qs

namespace Json

mutual

/-- The punctuation of compact JSON, its scalars quoted. -/
def compact : Json → List Text
  | .scalar _ => ["\"".toList, "\"".toList]
  | .arr items => glue ["[".toList] (glue (compactItems true items) ["]".toList])
  | .obj members => glue ["\x7b".toList] (glue (compactMembers true members) ["\x7d".toList])

def compactItems : Bool → List Json → List Text
  | _, [] => [[]]
  | first, j :: js =>
    glue [if first then [] else ",".toList] (glue (compact j) (compactItems false js))

def compactMembers : Bool → List (Text × Json) → List Text
  | _, [] => [[]]
  | first, (k, j) :: ms =>
    glue [(if first then [] else ",".toList) ++ "\"".toList ++ k ++ "\":".toList]
      (glue (compact j) (compactMembers false ms))

end

end Json

/-- The punctuation of a value: none around a scalar. -/
def TypedValue.compact : TypedValue → List Text
  | .scalar _ => []
  | .json j => j.compact

/-- A path as its elements, each behind a slash, with its keys. -/
def renderPath (p : GnmiPath) : Text :=
  p.flatMap fun e => "/".toList ++ e.name ++
    e.keys.flatMap fun k => "[".toList ++ k.1 ++ "=".toList ++ k.2 ++ "]".toList

/-- `gnmi_util` with values as compact JSON. Paths are parsed without keys. -/
def compactUtil : GnmiUtil where
  parseYangPath t := ((t.splitOn '/').filter (· ≠ [])).map fun name => ⟨name, []⟩
  pathToString := renderPath
  typedValueToString v := weave v.blank.compact (v.leaves.map Prod.snd)
  setTypedValue := .scalar

/-- It renders contents into a shape. -/
def compactRendering : Rendering compactUtil where
  punctuation := TypedValue.compact
  renders _ := rfl

/-- The answer to a read of a container, as one document with the password
of the container in it. -/
def containerResponse (password : String) : GetResponse :=
  ⟨[{ update := [⟨[⟨"system".toList, []⟩],
    .json (.obj [("password".toList, .scalar password.toList)])⟩] }]⟩

/-- The password is a secret of the answer, through its member name. -/
theorem fillSecrets_containerResponse (password : String) :
    (containerResponse password).fillSecrets compactUtil {} [] = containerResponse "" := by
  have hpath : isSensitivePath "/system/password".toList defaultDenyTokens = true := by
    decide +kernel
  have hsecret : ∀ (n : Notification) (u : GnmiUpdate), n.pathPrefix = [] →
      u.path = [⟨"system".toList, []⟩] →
      secretLeaf compactUtil {} n u ["password".toList] = true := by
    intro n u hn hu
    simp only [secretLeaf, fullPath, hn, hu]
    exact hpath
  simp only [containerResponse, GetResponse.fillSecrets, GnmiUpdate.fillSecrets, List.map_cons,
    List.map_nil, TypedValue.fill, Json.fill, Json.fillMembers, hsecret, if_true]
  rfl

/-- **A container read as one document leaks**: the member name is not
looked at. -/
theorem not_hides_container :
    ¬ ∀ (G : GnmiUtil) (_ : Rendering G) (cfg : LocalSinkConfig) (xpaths : List Text)
      (resp : GetResponse), Hides G cfg xpaths resp := by
  intro h
  have halike : Alike compactUtil {} (containerResponse "hunter2") (containerResponse "letmein") := by
    unfold Alike
    rw [fillSecrets_containerResponse, fillSecrets_containerResponse]
  have := h compactUtil compactRendering {} ["/system".toList] (containerResponse "hunter2")
    (containerResponse "letmein") halike
  revert this
  decide

end ZeroTouch
