import ZeroTouch.Gnmi.Executor
/-!
# The bridge

`Bridge::on_sms`: one inbound SMS is gated, tokenised, parsed, and either
executed by the gnmi executor or handed to the classic engine, and the
reply, where there is one, goes back to its sender. A run is a sequence
of messages over a world that changes between them. `OnSmsTrace` says
once what processing a message can call, and the four guarantees of
`Guarded` are read off it.
-/

namespace ZeroTouch

/-- `Bridge`: the executor, the transport's `send`, and the injected
functions, each of which may be unset except the executor. -/
structure Bridge (σ : Type) where
  gex : GnmiExecutor σ
  send : Text → Text → σ → Bool × σ
  tok : Option (Text → σ → List Text × σ)
  fallback : Option (Text → Text → σ → Text × σ)
  allow : Option (Text → σ → Bool × σ)

namespace Bridge

variable {σ : Type} (B : Bridge σ)

/-- The gate: an unset allowlist lets everyone through. -/
def allowed (sender : Text) : Traced σ Bool :=
  match B.allow with
  | some allow => call (.allow sender) (allow sender)
  | none => pure true

/-- The tokens of a body; none without a tokenizer. -/
def tokens (text : Text) : Traced σ (List Text) :=
  match B.tok with
  | some tok => call (.tokenize text) (tok text)
  | none => pure []

/-- `if (!reply.empty()) m_tx.send(in.sender, reply)`. -/
def reply (sender reply : Text) : Traced σ Unit :=
  if reply.isEmpty then pure ()
  else do
    let _ ← call (fun _ => .send sender reply) (B.send sender reply)

/-- The branch of `on_sms` that a parsed body takes: the gnmi executor,
else the classic engine where one is wired. -/
def dispatch (m : InboundSms) (g : GnmiCommand) : Traced σ Unit :=
  if g.kind ≠ .notGnmi then do
    let reply ← B.gex.handle g m.sender
    B.reply m.sender reply
  else
    match B.fallback with
    | some fallback => do
      let reply ← call (fun _ => .fallback m.sender m.text) (fallback m.sender m.text)
      B.reply m.sender reply
    | none => pure ()

/-- **`Bridge::on_sms`.** -/
def onSms (m : InboundSms) : Traced σ Unit := do
  let allowed ← B.allowed m.sender
  if !allowed then
    return
  let tokens ← B.tokens m.text
  B.dispatch m (parseGnmi tokens)

/-- A run: each message in turn, over the world the one before it left.
The calls are kept message by message. -/
def run : σ → List InboundSms → List (InboundSms × List Call)
  | _, [] => []
  | s, m :: ms =>
    let w := (B.onSms m (s, [])).2
    (m, w.2) :: run w.1 ms

/-! ## What one message can call -/

/-- The gate let the message through. -/
inductive GateTrace (m : InboundSms) : List Call → Prop
  | unset : GateTrace m []
  | passed : GateTrace m [.allow m.sender true]

/-- The body was read as `toks`. -/
inductive TokenTrace (m : InboundSms) : List Text → List Call → Prop
  | unset : TokenTrace m [] []
  | asked (toks : List Text) : TokenTrace m toks [.tokenize m.text toks]

/-- The classic engine was asked, or is not wired. -/
inductive FallbackTrace (m : InboundSms) : List Call → Prop
  | unset : FallbackTrace m []
  | asked : FallbackTrace m [.fallback m.sender m.text]

/-- The reply: nothing, or one SMS with a text to the sender. -/
inductive ReplyTrace (m : InboundSms) : List Call → Prop
  | silent : ReplyTrace m []
  | sent {text : Text} : text ≠ [] → ReplyTrace m [.send m.sender text]

/-- The calls of a message that passed the gate, after the tokenizer:
the executor's or the classic engine's, then the reply's. -/
inductive BodyTrace (m : InboundSms) (g : GnmiCommand) : List Call → Prop
  | gnmi {acc : Access} {U K S : List Call} :
      g.kind ≠ .notGnmi → GnmiExecutor.AuthTrace m.sender acc U →
      GnmiExecutor.SinkTrace g acc K → ReplyTrace m S → BodyTrace m g (U ++ K ++ S)
  | classic {F S : List Call} :
      g.kind = .notGnmi → FallbackTrace m F → ReplyTrace m S → BodyTrace m g (F ++ S)

/-- **What processing one message can call.** -/
inductive OnSmsTrace (m : InboundSms) : List Call → Prop
  | dropped : OnSmsTrace m [.allow m.sender false]
  | processed {A T C : List Call} {toks : List Text} :
      GateTrace m A → TokenTrace m toks T → BodyTrace m (parseGnmi toks) C →
      OnSmsTrace m (A ++ T ++ C)

theorem tokens_trace (m : InboundSms) (w : σ × List Call) :
    ∃ T, TokenTrace m (B.tokens m.text w).1 T ∧ (B.tokens m.text w).2.2 = w.2 ++ T := by
  unfold tokens
  cases B.tok with
  | none => exact ⟨[], .unset, (List.append_nil _).symm⟩
  | some tok => exact ⟨_, .asked _, rfl⟩

theorem reply_trace (m : InboundSms) (text : Text) (w : σ × List Call) :
    ∃ S, ReplyTrace m S ∧ (B.reply m.sender text w).2.2 = w.2 ++ S := by
  unfold reply
  by_cases h : text = []
  · exact ⟨[], .silent, by simp [h]⟩
  · exact ⟨_, .sent h, by simp [h]⟩

theorem dispatch_trace (m : InboundSms) (g : GnmiCommand) (w : σ × List Call) :
    ∃ C, BodyTrace m g C ∧ (B.dispatch m g w).2.2 = w.2 ++ C := by
  unfold dispatch
  by_cases hg : g.kind = .notGnmi
  · rw [if_neg (by simpa using hg)]
    cases B.fallback with
    | none => exact ⟨[], .classic hg .unset .silent, (List.append_nil _).symm⟩
    | some fallback =>
      obtain ⟨S, hS, hr⟩ := B.reply_trace m (fallback m.sender m.text w.1).1
        ((fallback m.sender m.text w.1).2, w.2 ++ [.fallback m.sender m.text])
      exact ⟨_, .classic hg .asked hS, by
        simpa [call, List.append_assoc] using hr⟩
  · rw [if_pos hg]
    obtain ⟨acc, U, K, hU, hK, hh⟩ := B.gex.handle_trace g m.sender w
    obtain ⟨S, hS, hr⟩ := B.reply_trace m (B.gex.handle g m.sender w).1
      (B.gex.handle g m.sender w).2
    exact ⟨_, .gnmi hg hU hK hS, by
      simpa [hh, List.append_assoc] using hr⟩

/-- **`on_sms` calls nothing but what `OnSmsTrace` lists.** -/
theorem onSms_trace (m : InboundSms) (s : σ) :
    OnSmsTrace m (B.onSms m (s, [])).2.2 := by
  -- past the gate, whatever it recorded, the rest appends to it
  have past : ∀ w : σ × List Call, GateTrace m w.2 →
      OnSmsTrace m (B.dispatch m (parseGnmi (B.tokens m.text w).1) (B.tokens m.text w).2).2.2 := by
    intro w hw
    obtain ⟨T, hT, ht⟩ := B.tokens_trace m w
    obtain ⟨C, hC, hc⟩ := B.dispatch_trace m (parseGnmi (B.tokens m.text w).1)
      (B.tokens m.text w).2
    rw [hc, ht]
    exact .processed hw hT hC
  unfold onSms allowed
  cases B.allow with
  | none => exact past (s, []) .unset
  | some allow =>
    cases ha : (allow m.sender s).1 with
    | false =>
      simpa [call, ha] using OnSmsTrace.dropped
    | true =>
      have := past ((allow m.sender s).2, [.allow m.sender true]) .passed
      simpa [call, ha] using this

end Bridge

/-! ## The stages of a message

A message goes through five stages, each of which makes one call at most,
in this order. -/

namespace Call

/-- The stage a call belongs to. The backend and the classic engine share
one. -/
def stage : Call → ℕ
  | .allow .. => 0
  | .tokenize .. => 1
  | .auth .. => 2
  | .get _ | .set _ | .fallback .. => 3
  | .send .. => 4

/-- A call of the gNMI backend. -/
def isSink : Call → Bool
  | .get _ | .set _ => true
  | _ => false

/-- A call of the classic engine. -/
def isFallback : Call → Bool
  | .fallback .. => true
  | _ => false

/-- An SMS handed to the transport. -/
def isSend : Call → Bool
  | .send .. => true
  | _ => false

/-- A question put to the session lookup. -/
def isAuth : Call → Bool
  | .auth .. => true
  | _ => false

theorem stage_of_isSink {c : Call} (h : c.isSink) : c.stage = 3 := by
  cases c <;> simp_all [isSink, stage]

theorem stage_of_isFallback {c : Call} (h : c.isFallback) : c.stage = 3 := by
  cases c <;> simp_all [isFallback, stage]

theorem stage_of_isSend {c : Call} (h : c.isSend) : c.stage = 4 := by
  cases c <;> simp_all [isSend, stage]

theorem stage_of_isAuth {c : Call} (h : c.isAuth) : c.stage = 2 := by
  cases c <;> simp_all [isAuth, stage]

end Call

/-- The calls of a trace pass through the stages in order, one call to a
stage. -/
def Staged (trace : List Call) : Prop := trace.Pairwise fun c d => c.stage < d.stage

/-- One stage, one call. -/
theorem Staged.eq_of_stage {trace : List Call} (h : Staged trace) {c d : Call}
    (hc : c ∈ trace) (hd : d ∈ trace) (hs : c.stage = d.stage) : c = d := by
  by_contra hne
  have hcd : c.stage < d.stage ∨ d.stage < c.stage := by
    induction h with
    | nil => simp at hc
    | cons hall _ ih =>
      rcases List.mem_cons.1 hc with rfl | hc'
      · rcases List.mem_cons.1 hd with rfl | hd'
        · exact absurd rfl hne
        · exact .inl (hall d hd')
      · rcases List.mem_cons.1 hd with rfl | hd'
        · exact .inr (hall c hc')
        · exact ih hc' hd'
  omega

/-- So whatever picks out calls of one stage picks out one at most. -/
theorem Staged.countP_le_one {trace : List Call} (h : Staged trace) {p : Call → Bool} {k : ℕ}
    (hp : ∀ c, p c → c.stage = k) : trace.countP p ≤ 1 := by
  induction h with
  | nil => simp
  | @cons c t hall _ ih =>
    by_cases hc : p c = true
    · have ht : t.countP p = 0 := by
        rw [List.countP_eq_zero]
        intro d hd hpd
        have := hall d hd
        have := hp c hc
        have := hp d hpd
        omega
      rw [List.countP_cons_of_pos hc, ht]
    · rw [List.countP_cons_of_neg hc]
      exact ih

namespace Bridge

variable {m : InboundSms} {g : GnmiCommand} {acc : Access} {toks : List Text}
variable {A T U K F S C : List Call}

theorem GateTrace.staged (h : GateTrace m A) : Staged A ∧ ∀ c ∈ A, c.stage = 0 := by
  cases h <;> simp [Staged, Call.stage]

theorem TokenTrace.staged (h : TokenTrace m toks T) : Staged T ∧ ∀ c ∈ T, c.stage = 1 := by
  cases h <;> simp [Staged, Call.stage]

theorem authTrace_staged (h : GnmiExecutor.AuthTrace m.sender acc U) :
    Staged U ∧ ∀ c ∈ U, c.stage = 2 := by
  cases h <;> simp [Staged, Call.stage]

theorem sinkTrace_staged (h : GnmiExecutor.SinkTrace g acc K) :
    Staged K ∧ ∀ c ∈ K, c.stage = 3 := by
  cases h <;> simp [Staged, Call.stage]

theorem FallbackTrace.staged (h : FallbackTrace m F) : Staged F ∧ ∀ c ∈ F, c.stage = 3 := by
  cases h <;> simp [Staged, Call.stage]

theorem ReplyTrace.staged (h : ReplyTrace m S) : Staged S ∧ ∀ c ∈ S, c.stage = 4 := by
  cases h <;> simp [Staged, Call.stage]

/-- Past the tokenizer the stages are the session lookup's and later. -/
theorem BodyTrace.staged (h : BodyTrace m g C) : Staged C ∧ ∀ c ∈ C, 2 ≤ c.stage := by
  unfold Staged
  cases h with
  | gnmi _ hU hK hS =>
    obtain ⟨hU, hU'⟩ := authTrace_staged hU
    obtain ⟨hK, hK'⟩ := sinkTrace_staged hK
    obtain ⟨hS, hS'⟩ := hS.staged
    simp only [List.pairwise_append, List.mem_append]
    refine ⟨⟨⟨hU, hK, fun c hc d hd => ?_⟩, hS, fun c hc d hd => ?_⟩, ?_⟩
    · rw [hU' c hc, hK' d hd]; omega
    · rw [hS' d hd]
      rcases hc with hc | hc
      · rw [hU' c hc]; omega
      · rw [hK' c hc]; omega
    · rintro c ((hc | hc) | hc)
      · rw [hU' c hc]
      · rw [hK' c hc]; omega
      · rw [hS' c hc]; omega
  | classic _ hF hS =>
    obtain ⟨hF, hF'⟩ := hF.staged
    obtain ⟨hS, hS'⟩ := hS.staged
    simp only [List.pairwise_append, List.mem_append]
    refine ⟨⟨hF, hS, fun c hc d hd => ?_⟩, ?_⟩
    · rw [hF' c hc, hS' d hd]; omega
    · rintro c (hc | hc)
      · rw [hF' c hc]; omega
      · rw [hS' c hc]; omega

/-- **A message's calls go through the stages in order.** -/
theorem OnSmsTrace.staged {trace : List Call} (h : OnSmsTrace m trace) : Staged trace := by
  cases h with
  | dropped => simp [Staged]
  | processed hA hT hC =>
    obtain ⟨hA, hA'⟩ := hA.staged
    obtain ⟨hT, hT'⟩ := hT.staged
    obtain ⟨hC, hC'⟩ := hC.staged
    simp only [Staged, List.pairwise_append, List.mem_append] at *
    refine ⟨⟨hA, hT, fun c hc d hd => ?_⟩, hC, fun c hc d hd => ?_⟩
    · rw [hA' c hc, hT' d hd]; omega
    · have := hC' d hd
      rcases hc with hc | hc
      · rw [hA' c hc]; omega
      · rw [hT' c hc]; omega

end Bridge

/-! ## Authorisation and silence -/

/-- **What the calls made for one message must satisfy.** -/
structure Guarded (m : InboundSms) (trace : List Call) : Prop where
  /-- A sender the gate refuses is dropped: nothing else is called. -/
  refused : ∀ sender, .allow sender false ∈ trace → trace = [.allow m.sender false]
  /-- A write is the parsed one, and follows this message's own Admin answer. -/
  set_authorised : ∀ us, .set us ∈ trace → ∃ toks pre post, trace = pre ++ .set us :: post ∧
    .tokenize m.text toks ∈ pre ∧ .auth m.sender .admin ∈ pre ∧
    (parseGnmi toks).kind = .set ∧ (parseGnmi toks).updates = us
  /-- A read is the parsed one, and follows this message's own login answer. -/
  get_authorised : ∀ xs, .get xs ∈ trace → ∃ toks acc pre post, trace = pre ++ .get xs :: post ∧
    .tokenize m.text toks ∈ pre ∧ .auth m.sender acc ∈ pre ∧ (acc = .viewer ∨ acc = .admin) ∧
    (parseGnmi toks).kind = .get ∧ (parseGnmi toks).xpaths = xs
  /-- The session lookup is asked once at most, so its answer is unambiguous. -/
  auth_once : trace.countP Call.isAuth ≤ 1
  sink_once : trace.countP Call.isSink ≤ 1
  /-- The backend and the classic engine are never both invoked. -/
  sink_or_fallback : ¬ ((∃ c ∈ trace, c.isSink) ∧ ∃ c ∈ trace, c.isFallback)
  send_once : trace.countP Call.isSend ≤ 1
  /-- The one reply goes to the sender and says something. -/
  reply_to_sender : ∀ recipient text, .send recipient text ∈ trace →
    recipient = m.sender ∧ text ≠ []

namespace Bridge

variable {m : InboundSms} {trace : List Call}

/-- A backend call is the executor's, and everything before it is the
gate's, the tokenizer's and the session lookup's. -/
theorem OnSmsTrace.sink_split (h : OnSmsTrace m trace) {c : Call} (hc : c ∈ trace)
    (hs : c.isSink) : ∃ toks acc pre post, trace = pre ++ c :: post ∧
      .tokenize m.text toks ∈ pre ∧ .auth m.sender acc ∈ pre ∧
      GnmiExecutor.SinkTrace (parseGnmi toks) acc [c] := by
  have h3 : c.stage = 3 := Call.stage_of_isSink hs
  cases h with
  | dropped => simp_all [Call.stage]
  | @processed A T C toks hA hT hC =>
    have hcC : c ∈ C := by
      rcases List.mem_append.1 hc with hc | hc
      · rcases List.mem_append.1 hc with hc | hc
        · have := hA.staged.2 c hc; omega
        · have := hT.staged.2 c hc; omega
      · exact hc
    cases hC with
    | classic _ hF hS =>
      rcases List.mem_append.1 hcC with hc | hc
      · cases hF <;> simp_all [Call.isSink]
      · have := hS.staged.2 c hc; omega
    | @gnmi acc U K S hg hU hK hS =>
      have hcK : c ∈ K := by
        rcases List.mem_append.1 hcC with hc | hc
        · rcases List.mem_append.1 hc with hc | hc
          · have := (authTrace_staged hU).2 c hc; omega
          · exact hc
        · have := hS.staged.2 c hc; omega
      have hKc : K = [c] := by
        cases hK <;> simp_all
      subst hKc
      refine ⟨toks, acc, A ++ T ++ U, S, by simp, ?_, ?_, hK⟩
      · -- an unset tokenizer yields no tokens, and those are no gnmi command
        cases hT with
        | unset => exact absurd rfl hg
        | asked => simp
      · cases hU with
        | unset => cases hK <;> simp_all
        | asked => simp

theorem OnSmsTrace.refused (h : OnSmsTrace m trace) {sender : Text}
    (hc : .allow sender false ∈ trace) : trace = [.allow m.sender false] := by
  cases h with
  | dropped => rfl
  | processed hA hT hC =>
    exfalso
    rcases List.mem_append.1 hc with hc | hc
    · rcases List.mem_append.1 hc with hc | hc
      · cases hA <;> simp at hc
      · have := hT.staged.2 _ hc
        simp [Call.stage] at this
    · have := hC.staged.2 _ hc
      simp [Call.stage] at this

theorem ReplyTrace.send {S : List Call} (h : ReplyTrace m S) {recipient text : Text}
    (hc : .send recipient text ∈ S) : recipient = m.sender ∧ text ≠ [] := by
  cases h with
  | silent => simp at hc
  | sent ht => simp_all

theorem OnSmsTrace.reply_to_sender (h : OnSmsTrace m trace) {recipient text : Text}
    (hc : .send recipient text ∈ trace) : recipient = m.sender ∧ text ≠ [] := by
  have h4 : (Call.send recipient text).stage = 4 := rfl
  cases h with
  | dropped => simp at hc
  | processed hA hT hC =>
    rcases List.mem_append.1 hc with hc | hc
    · rcases List.mem_append.1 hc with hc | hc
      · have := hA.staged.2 _ hc; omega
      · have := hT.staged.2 _ hc; omega
    · cases hC with
      | classic _ hF hS =>
        rcases List.mem_append.1 hc with hc | hc
        · have := hF.staged.2 _ hc; omega
        · exact hS.send hc
      | gnmi _ hU hK hS =>
        rcases List.mem_append.1 hc with hc | hc
        · rcases List.mem_append.1 hc with hc | hc
          · have := (authTrace_staged hU).2 _ hc; omega
          · have := (sinkTrace_staged hK).2 _ hc; omega
        · exact hS.send hc

/-- What a message may call is guarded. -/
theorem OnSmsTrace.guarded (h : OnSmsTrace m trace) : Guarded m trace where
  refused _ hc := h.refused hc
  set_authorised us hc := by
    obtain ⟨toks, acc, pre, post, ht, htok, hauth, hK⟩ := h.sink_split hc rfl
    cases hK with
    | set hk ha => exact ⟨toks, pre, post, ht, htok, ha ▸ hauth, hk, rfl⟩
  get_authorised xs hc := by
    obtain ⟨toks, acc, pre, post, ht, htok, hauth, hK⟩ := h.sink_split hc rfl
    cases hK with
    | get hk ha =>
      refine ⟨toks, acc, pre, post, ht, htok, hauth, ?_, hk, rfl⟩
      cases acc <;> simp_all
  auth_once := h.staged.countP_le_one fun _ => Call.stage_of_isAuth
  sink_once := h.staged.countP_le_one fun _ => Call.stage_of_isSink
  sink_or_fallback := by
    rintro ⟨⟨c, hc, hsink⟩, d, hd, hfall⟩
    have hcd : c = d := h.staged.eq_of_stage hc hd
      (by rw [Call.stage_of_isSink hsink, Call.stage_of_isFallback hfall])
    subst hcd
    cases c <;> simp_all [Call.isSink, Call.isFallback]
  send_once := h.staged.countP_le_one fun _ => Call.stage_of_isSend
  reply_to_sender _ _ hc := h.reply_to_sender hc

end Bridge

end ZeroTouch
