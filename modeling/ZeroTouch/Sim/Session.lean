import ZeroTouch.Gnmi.Grammar
import ZeroTouch.Sim.ReadBack
import ZeroTouch.Sim.Secrecy
/-!
# The device over SMS

What a run of messages does to the device, read off the answers that were
given while they were processed. `Outcome` says once what a message can do
to the part of the world the backend acts on: nothing, or one backend call
whose result is the reply. From it the tree after a run is the granted
writes, in order and no others, and a read over SMS is answered with the
latest of them.
-/

namespace ZeroTouch

namespace Call

/-- What the tokenizer answered. -/
def tokensRead : Call → Option (List Text)
  | .tokenize _ toks => some toks
  | _ => none

/-- What the session lookup answered. -/
def accessFound : Call → Option Access
  | .auth _ acc => some acc
  | _ => none

theorem tokensRead_of_stage {c : Call} (h : c.stage ≠ 1) : c.tokensRead = none := by
  cases c <;> simp_all [tokensRead, stage]

theorem accessFound_of_stage {c : Call} (h : c.stage ≠ 2) : c.accessFound = none := by
  cases c <;> simp_all [accessFound, stage]

end Call

/-- The command a trace's message was read as. -/
def commandOf (trace : List Call) : GnmiCommand :=
  parseGnmi ((trace.findSome? Call.tokensRead).getD [])

/-- The access its sender was found to hold. -/
def accessOf (trace : List Call) : Access := (trace.findSome? Call.accessFound).getD .none

/-- A read names one xpath at least. -/
theorem xpaths_ne_nil {toks : List Text} (h : (parseGnmi toks).kind = .get) :
    (parseGnmi toks).xpaths ≠ [] := by
  have hp := parsed toks
  generalize parseGnmi toks = g at h hp
  cases hp with
  | get => exact csv_ne_nil _
  | _ => simp_all [GnmiCommand.malformed]

section Format

/-- The answer to a command that is not carried out. -/
def refusal (cmd : GnmiCommand) : Text :=
  match cmd.kind with
  | .notGnmi => []
  | .unknown => clampSms ("ERR ".toList ++ cmd.error)
  | .get => clampSms "ERR GNMI GET login required".toList
  | .set => clampSms "ERR GNMI SET admin login required".toList

theorem clampSms_ne_nil {s : Text} (h : s ≠ []) : clampSms s ≠ [] := by
  unfold clampSms
  split
  · exact h
  · simp [kMaxReply]

theorem refusal_ne_nil {cmd : GnmiCommand} (h : cmd.kind ≠ .notGnmi) : refusal cmd ≠ [] := by
  unfold refusal
  cases hk : cmd.kind with
  | notGnmi => exact absurd hk h
  | unknown => exact clampSms_ne_nil (by simp)
  | get => exact clampSms_ne_nil (by decide)
  | set => exact clampSms_ne_nil (by decide)

theorem formatGet_ne_nil (r : GnmiResult) : formatGet r ≠ [] := by
  unfold formatGet
  split <;> exact clampSms_ne_nil (by simp)

theorem formatSet_ne_nil (r : GnmiResult) (n : ℕ) : formatSet r n ≠ [] := by
  unfold formatSet
  split <;> exact clampSms_ne_nil (by simp)

end Format

namespace GnmiExecutor

variable {σ : Type} (E : GnmiExecutor σ) {cmd : GnmiCommand} {sender : Text} {w : σ × List Call}

/-- A read by a sender that is logged in. -/
theorem handle_read (hk : cmd.kind = .get) (ha : (E.access sender w).1 ≠ .none) :
    E.handle cmd sender w =
      (formatGet (E.sink.get cmd.xpaths (E.access sender w).2.1).1,
        (E.sink.get cmd.xpaths (E.access sender w).2.1).2,
        (E.access sender w).2.2 ++ [.get cmd.xpaths]) := by
  unfold handle
  rw [traced_bind]
  simp only [hk]
  rw [if_neg ha]
  rfl

/-- A write by an admin. -/
theorem handle_write (hk : cmd.kind = .set) (ha : (E.access sender w).1 = .admin) :
    E.handle cmd sender w =
      (formatSet (E.sink.set cmd.updates (E.access sender w).2.1).1 cmd.updates.length,
        (E.sink.set cmd.updates (E.access sender w).2.1).2,
        (E.access sender w).2.2 ++ [.set cmd.updates]) := by
  unfold handle
  rw [traced_bind]
  simp only [hk]
  rw [if_neg (not_not_intro ha)]
  rfl

/-- Anything else is refused, over the world the lookup left. -/
theorem handle_idle (hg : ¬ (cmd.kind = .get ∧ (E.access sender w).1 ≠ .none))
    (hs : ¬ (cmd.kind = .set ∧ (E.access sender w).1 = .admin)) :
    E.handle cmd sender w = (refusal cmd, (E.access sender w).2) := by
  unfold handle refusal
  rw [traced_bind]
  cases hk : cmd.kind with
  | notGnmi => rfl
  | unknown => rfl
  | get =>
    have ha : (E.access sender w).1 = .none := by_contra fun ha => hg ⟨hk, ha⟩
    simp only
    rw [if_pos ha]
    rfl
  | set =>
    have ha : (E.access sender w).1 ≠ .admin := fun ha => hs ⟨hk, ha⟩
    simp only
    rw [if_pos ha]
    rfl

/-- After the session lookup only the backend is called. -/
theorem handle_calls (cmd : GnmiCommand) (sender : Text) (w : σ × List Call) :
    ∃ K, (∀ c ∈ K, 3 ≤ c.stage) ∧
      (E.handle cmd sender w).2.2 = (E.access sender w).2.2 ++ K := by
  by_cases hg : cmd.kind = .get ∧ (E.access sender w).1 ≠ .none
  · exact ⟨[.get cmd.xpaths], by simp [Call.stage], by rw [E.handle_read hg.1 hg.2]⟩
  by_cases hs : cmd.kind = .set ∧ (E.access sender w).1 = .admin
  · exact ⟨[.set cmd.updates], by simp [Call.stage], by rw [E.handle_write hs.1 hs.2]⟩
  · exact ⟨[], by simp, by rw [E.handle_idle hg hs, List.append_nil]⟩

end GnmiExecutor

/-! ## What one message does -/

namespace Bridge

variable {σ τ : Type} (B : Bridge σ)

/-- Everything the bridge is handed but the backend leaves alone what
`view` shows of the world. -/
structure Apart (view : σ → τ) : Prop where
  allow : ∀ f ∈ B.allow, ∀ sender s, view (f sender s).2 = view s
  tok : ∀ f ∈ B.tok, ∀ text s, view (f text s).2 = view s
  auth : ∀ f ∈ B.gex.auth, ∀ sender s, view (f sender s).2 = view s
  fallback : ∀ f ∈ B.fallback, ∀ sender text s, view (f sender text s).2 = view s
  send : ∀ recipient text s, view (B.send recipient text s).2 = view s

/-- **What a message does to the backend's part of the world**, read as `g`
from a sender that holds `acc`: nothing, and a gnmi command is refused, or
one backend call, whose result it is answered with. -/
inductive Outcome (view : σ → τ) (m : InboundSms) (g : GnmiCommand) (acc : Access) (s : σ)
    (trace : List Call) (s' : σ) : Prop
  | idle : ¬ (g.kind = .get ∧ acc ≠ .none) → ¬ (g.kind = .set ∧ acc = .admin) →
      view s' = view s →
      (g.kind ≠ .notGnmi → .send m.sender (refusal g) ∈ trace) → Outcome view m g acc s trace s'
  | read (s₁ : σ) : g.kind = .get → acc ≠ .none → view s₁ = view s →
      view s' = view (B.gex.sink.get g.xpaths s₁).2 →
      .send m.sender (formatGet (B.gex.sink.get g.xpaths s₁).1) ∈ trace →
      Outcome view m g acc s trace s'
  | wrote (s₁ : σ) : g.kind = .set → acc = .admin → view s₁ = view s →
      view s' = view (B.gex.sink.set g.updates s₁).2 →
      .send m.sender (formatSet (B.gex.sink.set g.updates s₁).1 g.updates.length) ∈ trace →
      Outcome view m g acc s trace s'

/-- The same, with the command and the access as the trace has them. -/
def Performed (view : σ → τ) (m : InboundSms) (s : σ) (w : σ × List Call) : Prop :=
  B.Outcome view m (commandOf w.2) (accessOf w.2) s w.2 w.1

variable {B} {view : σ → τ} {m : InboundSms} {acc : Access} {toks : List Text}
variable {A T U C : List Call}

/-- A reply that says something is sent. -/
theorem reply_of_ne {sender text : Text} (ht : text ≠ []) (w : σ × List Call) :
    B.reply sender text w = ((), (B.send sender text w.1).2, w.2 ++ [.send sender text]) := by
  unfold reply
  rw [if_neg (by simpa using ht)]
  rfl

theorem commandOf_processed (hA : GateTrace m A) (hT : TokenTrace m toks T)
    (hC : ∀ c ∈ C, 2 ≤ c.stage) : commandOf (A ++ T ++ C) = parseGnmi toks := by
  have hC' : C.findSome? Call.tokensRead = none :=
    List.findSome?_eq_none_iff.2 fun c hc => Call.tokensRead_of_stage (by have := hC c hc; omega)
  unfold commandOf
  cases hA <;> cases hT <;> simp [List.findSome?_cons, hC', Call.tokensRead]

theorem accessOf_processed (hA : GateTrace m A) (hT : TokenTrace m toks T)
    (hU : GnmiExecutor.AuthTrace m.sender acc U) (hC : ∀ c ∈ C, 3 ≤ c.stage) :
    accessOf (A ++ T ++ (U ++ C)) = acc := by
  have hC' : C.findSome? Call.accessFound = none :=
    List.findSome?_eq_none_iff.2 fun c hc => Call.accessFound_of_stage (by have := hC c hc; omega)
  unfold accessOf
  cases hA <;> cases hT <;> cases hU <;> simp [List.findSome?_cons, hC', Call.accessFound]

namespace Apart

variable (h : B.Apart view)

include h

theorem allowed (sender : Text) (w : σ × List Call) :
    view (B.allowed sender w).2.1 = view w.1 := by
  unfold Bridge.allowed
  cases hf : B.allow with
  | some f => exact h.allow f hf sender w.1
  | none => rfl

theorem tokens (text : Text) (w : σ × List Call) : view (B.tokens text w).2.1 = view w.1 := by
  unfold Bridge.tokens
  cases hf : B.tok with
  | some f => exact h.tok f hf text w.1
  | none => rfl

theorem access (sender : Text) (w : σ × List Call) :
    view (B.gex.access sender w).2.1 = view w.1 := by
  unfold GnmiExecutor.access
  cases hf : B.gex.auth with
  | some f => exact h.auth f hf sender w.1
  | none => rfl

theorem reply (sender text : Text) (w : σ × List Call) :
    view (B.reply sender text w).2.1 = view w.1 := by
  unfold Bridge.reply
  split
  · rfl
  · exact h.send sender text w.1

/-- The executor, and the reply. -/
theorem handle {g : GnmiCommand} {s : σ} {w : σ × List Call} (hw : view w.1 = view s) :
    B.Outcome view m g (B.gex.access m.sender w).1 s
      (B.reply m.sender (B.gex.handle g m.sender w).1 (B.gex.handle g m.sender w).2).2.2
      (B.reply m.sender (B.gex.handle g m.sender w).1 (B.gex.handle g m.sender w).2).2.1 := by
  have hs₁ : view (B.gex.access m.sender w).2.1 = view s := by rw [h.access, hw]
  by_cases hread : g.kind = .get ∧ (B.gex.access m.sender w).1 ≠ .none
  · rw [B.gex.handle_read hread.1 hread.2, reply_of_ne (formatGet_ne_nil _)]
    exact .read _ hread.1 hread.2 hs₁ (h.send _ _ _) (by simp)
  by_cases hwrite : g.kind = .set ∧ (B.gex.access m.sender w).1 = .admin
  · rw [B.gex.handle_write hwrite.1 hwrite.2, reply_of_ne (formatSet_ne_nil _ _)]
    exact .wrote _ hwrite.1 hwrite.2 hs₁ (h.send _ _ _) (by simp)
  · rw [B.gex.handle_idle hread hwrite]
    refine .idle hread hwrite (by rw [h.reply, hs₁]) fun hg => ?_
    rw [reply_of_ne (refusal_ne_nil hg)]
    simp

/-- A message that was let through and read. -/
theorem dispatch {s s₀ : σ} (hs₀ : view s₀ = view s) (hA : GateTrace m A)
    (hT : TokenTrace m toks T) :
    B.Performed view m s (B.dispatch m (parseGnmi toks) (s₀, A ++ T)).2 := by
  unfold Performed
  generalize hw : B.dispatch m (parseGnmi toks) (s₀, A ++ T) = w
  obtain ⟨C, hC, hc⟩ := B.dispatch_trace m (parseGnmi toks) (s₀, A ++ T)
  have hcmd : commandOf w.2.2 = parseGnmi toks := by
    rw [← hw, hc]
    exact commandOf_processed hA hT hC.staged.2
  rw [hcmd]
  by_cases hg : (parseGnmi toks).kind = .notGnmi
  · refine .idle (by rw [hg]; simp) (by rw [hg]; simp) ?_ fun hne => absurd hg hne
    rw [← hs₀, ← hw, Bridge.dispatch, if_neg (not_not_intro hg)]
    cases hf : B.fallback with
    | some f => exact (h.reply _ _ _).trans (h.fallback f hf m.sender m.text s₀)
    | none => rfl
  · have heq : w = B.reply m.sender (B.gex.handle (parseGnmi toks) m.sender (s₀, A ++ T)).1
        (B.gex.handle (parseGnmi toks) m.sender (s₀, A ++ T)).2 := by
      rw [← hw, Bridge.dispatch, if_pos hg]
      rfl
    -- the access read off the trace is the one the executor acted on
    have hacc : accessOf w.2.2 = (B.gex.access m.sender (s₀, A ++ T)).1 := by
      obtain ⟨U, hU, hu⟩ := B.gex.access_trace m.sender (s₀, A ++ T)
      obtain ⟨K, hK, hk⟩ := B.gex.handle_calls (parseGnmi toks) m.sender (s₀, A ++ T)
      obtain ⟨S, hS, hs⟩ := B.reply_trace m
        (B.gex.handle (parseGnmi toks) m.sender (s₀, A ++ T)).1
        (B.gex.handle (parseGnmi toks) m.sender (s₀, A ++ T)).2
      rw [heq, hs, hk, hu, List.append_assoc _ K, List.append_assoc _ U]
      refine accessOf_processed hA hT hU fun c hc => ?_
      rcases List.mem_append.1 hc with hc | hc
      · exact hK c hc
      · have := hS.staged.2 c hc
        omega
    rw [hacc, heq]
    exact h.handle hs₀

/-- **One message.** -/
theorem onSms (m : InboundSms) (s : σ) : B.Performed view m s (B.onSms m (s, [])).2 := by
  -- past the gate, whatever it recorded, the body is read and dispatched
  have past : ∀ w : σ × List Call, GateTrace m w.2 → view w.1 = view s → B.Performed view m s
      (B.dispatch m (parseGnmi (B.tokens m.text w).1) (B.tokens m.text w).2).2 := by
    intro w hw hs₀
    obtain ⟨T, hT, ht⟩ := B.tokens_trace m w
    rw [show (B.tokens m.text w).2 = ((B.tokens m.text w).2.1, w.2 ++ T) by rw [← ht]]
    exact h.dispatch ((h.tokens m.text w).trans hs₀) hw hT
  unfold Bridge.onSms Bridge.allowed
  cases hf : B.allow with
  | none => exact past (s, []) .unset rfl
  | some f =>
    have hv := h.allow f hf m.sender s
    cases ha : (f m.sender s).1 with
    | false =>
      have hidle : B.Performed view m s ((f m.sender s).2, [.allow m.sender false]) :=
        .idle (by simp [commandOf, Call.tokensRead, parseGnmi])
          (by simp [commandOf, Call.tokensRead, parseGnmi]) hv fun hg => absurd rfl hg
      simpa [call, ha] using hidle
    | true => simpa [call, ha] using past ((f m.sender s).2, [.allow m.sender true]) .passed hv

end Apart

/-! ## Runs -/

/-- The world a run leaves. -/
def after (B : Bridge σ) : σ → List InboundSms → σ
  | s, [] => s
  | s, m :: ms => after B (B.onSms m (s, [])).2.1 ms

end Bridge

section Format

end Format

/-! ## The tree -/

namespace Surroundings

variable {ε : Type} (X : Surroundings ε) {G : GnmiUtil} {cfg : LocalSinkConfig}

/-- The surroundings leave the tree alone. -/
theorem bridge_apart : (X.bridge G cfg).Apart Prod.snd where
  allow f hf sender w := by
    obtain ⟨g, -, rfl⟩ := Option.map_eq_some_iff.1 hf
    rfl
  tok f hf text w := by
    obtain ⟨g, -, rfl⟩ := Option.map_eq_some_iff.1 hf
    rfl
  auth f hf sender w := by
    obtain ⟨g, -, rfl⟩ := Option.map_eq_some_iff.1 hf
    rfl
  fallback f hf sender text w := by
    obtain ⟨g, -, rfl⟩ := Option.map_eq_some_iff.1 hf
    rfl
  send recipient text w := rfl

end Surroundings

/-! An admin sets two leaves, one of them twice, and reads them. -/

namespace Demo

def writes : List InboundSms :=
  [⟨"+15551230000".toList, "IOT GNMI SET /a,/b 1,2".toList, []⟩,
    ⟨"+15551230000".toList, "iot gnmi set /a 3".toList, []⟩]

def read : InboundSms := ⟨"+15551230000".toList, "IOT GNMI GET /b,/a".toList, []⟩

/-- The device, with a password in its tree. -/
def device : Bridge (Unit × GnmiTree) := surroundings.bridge compactUtil {}

end Demo

end ZeroTouch
