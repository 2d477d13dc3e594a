import ZeroTouch.Bridge
import ZeroTouch.Daemon.Accounts
/-!
# The command engine, as the daemons run it

Both daemons wire a bridge to the same engine: `smsctl`, a library, which
keeps the sessions and carries out the classic commands. `Smsctl` is what
the daemons call of it, and `Smsctl.Lawful` what they rely on, that a
session is opened with an account the login's lookup returned and in no
other way. `Engine` is what the two daemons have in common, and
`Engine.Opened` what is true of the sessions whatever they do with it:
every session's account is one that some lookup returned.

`Preserves` is the rule by which an invariant of the world, and with it what
is true of the calls, is carried through a message.
-/

namespace ZeroTouch

/-! ## Computations that keep an invariant -/

section Preserves

variable {σ α β : Type} {J : σ × List Call → Prop}

/-- **The computation keeps `J`**, of the world and the calls so far. -/
def Preserves (J : σ × List Call → Prop) (x : Traced σ α) : Prop := ∀ w, J w → J (x w).2

theorem preserves_pure (a : α) : Preserves J (pure a : Traced σ α) := fun _ hJ => hJ

theorem Preserves.bind {x : Traced σ α} {f : α → Traced σ β} (hx : Preserves J x)
    (hf : ∀ a, Preserves J (f a)) : Preserves J (x >>= f) :=
  fun w hJ => hf _ _ (hx w hJ)

/-- One call, of a function that keeps `J` with what is recorded of it. -/
theorem preserves_call {c : α → Call} {f : σ → α × σ}
    (h : ∀ w, J w → J ((f w.1).2, w.2 ++ [c (f w.1).1])) : Preserves J (call c f) := h

/-- What a bridge is handed keeps `J`. -/
structure Bridge.Keeping (B : Bridge σ) (J : σ × List Call → Prop) : Prop where
  allow : ∀ f, B.allow = some f → ∀ sender w, J w →
    J ((f sender w.1).2, w.2 ++ [.allow sender (f sender w.1).1])
  tok : ∀ f, B.tok = some f → ∀ text w, J w →
    J ((f text w.1).2, w.2 ++ [.tokenize text (f text w.1).1])
  auth : ∀ f, B.gex.auth = some f → ∀ sender w, J w →
    J ((f sender w.1).2, w.2 ++ [.auth sender (f sender w.1).1])
  get : ∀ xs w, J w → J ((B.gex.sink.get xs w.1).2, w.2 ++ [.get xs])
  set : ∀ us w, J w → J ((B.gex.sink.set us w.1).2, w.2 ++ [.set us])
  fallback : ∀ f, B.fallback = some f → ∀ sender text w, J w →
    J ((f sender text w.1).2, w.2 ++ [.fallback sender text])
  send : ∀ recipient text w, J w →
    J ((B.send recipient text w.1).2, w.2 ++ [.send recipient text])

namespace Bridge.Keeping

variable {B : Bridge σ}

theorem reply (h : B.Keeping J) (sender text : Text) : Preserves J (B.reply sender text) := by
  unfold Bridge.reply
  split
  · exact preserves_pure ()
  · exact (preserves_call (h.send sender text)).bind fun _ => preserves_pure ()

theorem handle (h : B.Keeping J) (g : GnmiCommand) (sender : Text) :
    Preserves J (B.gex.handle g sender) := by
  have haccess : Preserves J (B.gex.access sender) := by
    unfold GnmiExecutor.access
    cases hf : B.gex.auth with
    | none => exact preserves_pure _
    | some f => exact preserves_call (h.auth f hf sender)
  unfold GnmiExecutor.handle
  refine haccess.bind fun access => ?_
  cases g.kind with
  | notGnmi => exact preserves_pure _
  | unknown => exact preserves_pure _
  | get =>
    dsimp only
    split
    · exact preserves_pure _
    · exact (preserves_call (h.get g.xpaths)).bind fun _ => preserves_pure _
  | set =>
    dsimp only
    split
    · exact preserves_pure _
    · exact (preserves_call (h.set g.updates)).bind fun _ => preserves_pure _

/-- **So does a message.** -/
theorem onSms (h : B.Keeping J) (m : InboundSms) : Preserves J (B.onSms m) := by
  have hallowed : Preserves J (B.allowed m.sender) := by
    unfold Bridge.allowed
    cases hf : B.allow with
    | none => exact preserves_pure _
    | some f => exact preserves_call (h.allow f hf m.sender)
  have htokens : Preserves J (B.tokens m.text) := by
    unfold Bridge.tokens
    cases hf : B.tok with
    | none => exact preserves_pure _
    | some f => exact preserves_call (h.tok f hf m.text)
  have hdispatch : ∀ g, Preserves J (B.dispatch m g) := by
    intro g
    unfold Bridge.dispatch
    split
    · exact (h.handle g m.sender).bind fun reply => h.reply m.sender reply
    · cases hf : B.fallback with
      | none => exact preserves_pure _
      | some f =>
        exact (preserves_call (h.fallback f hf m.sender m.text)).bind fun reply =>
          h.reply m.sender reply
  unfold Bridge.onSms
  refine hallowed.bind fun allowed => ?_
  split
  · exact preserves_pure ()
  · exact htokens.bind fun tokens => hdispatch _

end Bridge.Keeping

end Preserves

/-- **A message the gate refuses** costs the question, and nothing else. -/
theorem Bridge.onSms_refused {σ : Type} {B : Bridge σ} {allow : Text → σ → Bool × σ}
    (hB : B.allow = some allow) {m : InboundSms} {s : σ} (h : (allow m.sender s).1 = false) :
    (B.onSms m (s, [])).2 = ((allow m.sender s).2, [.allow m.sender false]) := by
  simp [Bridge.onSms, Bridge.allowed, hB, call, h]

/-- The classic engine has been asked, whatever is called next. -/
theorem isFallback_snoc {calls : List Call} {c : Call} (h : ∃ d ∈ calls, d.isFallback) :
    ∃ d ∈ calls ++ [c], d.isFallback := by
  obtain ⟨d, hd, hfallback⟩ := h
  exact ⟨d, List.mem_append_left _ hd, hfallback⟩

/-- **What the backend is called for is by right.** Where, unless the
classic engine was asked, every answer of the session lookup goes back to
an account of `P`, a write has the right of one that is an administrator's,
and a read that of any. -/
theorem Bridge.sink_by_right {σ : Type} {B : Bridge σ} {m : InboundSms} {s : σ}
    {P : Account → Prop}
    (hanswered : ∀ sender acc, .auth sender acc ∈ (B.onSms m (s, [])).2.2 → acc ≠ .none →
      (∃ c ∈ (B.onSms m (s, [])).2.2, c.isFallback) ∨
        ∃ a, P a ∧ (acc = .admin → a.access = "Admin".toList)) :
    (∀ us, .set us ∈ (B.onSms m (s, [])).2.2 → ∃ a, P a ∧ a.access = "Admin".toList) ∧
      ∀ xs, .get xs ∈ (B.onSms m (s, [])).2.2 → ∃ a, P a := by
  have htrace := B.onSms_trace m s
  -- the backend was called, so the classic engine was not
  have hclassic : ∀ {c : Call}, c ∈ (B.onSms m (s, [])).2.2 → c.isSink →
      ¬ ∃ d ∈ (B.onSms m (s, [])).2.2, d.isFallback :=
    fun hc hsink hfallback => htrace.guarded.sink_or_fallback ⟨⟨_, hc, hsink⟩, hfallback⟩
  refine ⟨fun us hus => ?_, fun xs hxs => ?_⟩
  · obtain ⟨toks, acc, pre, post, heq, -, hauth, hsink⟩ := htrace.sink_split hus rfl
    cases hsink with
    | set _ hadmin =>
      have hmem : Call.auth m.sender acc ∈ (B.onSms m (s, [])).2.2 := by
        rw [heq]
        exact List.mem_append_left _ hauth
      obtain ⟨a, ha, hright⟩ :=
        (hanswered m.sender acc hmem (by simp [hadmin])).resolve_left (hclassic hus rfl)
      exact ⟨a, ha, hright hadmin⟩
  · obtain ⟨toks, acc, pre, post, heq, -, hauth, hsink⟩ := htrace.sink_split hxs rfl
    cases hsink with
    | get _ hlogin =>
      have hmem : Call.auth m.sender acc ∈ (B.onSms m (s, [])).2.2 := by
        rw [heq]
        exact List.mem_append_left _ hauth
      obtain ⟨a, ha, -⟩ :=
        (hanswered m.sender acc hmem hlogin).resolve_left (hclassic hxs rfl)
      exact ⟨a, ha⟩

/-! ## The library -/

/-- `smsctl::Kind`, as far as the daemons tell commands apart. -/
inductive ClassicKind
  | notACommand
  | wifi
  | factoryReset
  | other
  deriving DecidableEq, Repr

/-- **`smsctl`**, over the session store `S`, its commands `K`, and the
rest of the world `E`, in which the classic commands act. To ask for a
session may change the store, which forgets one that has run out. -/
structure Smsctl (S K E : Type) where
  empty : S
  setConfig : SessionConfig → S → S
  senderAllowed : Text → S → Bool
  session : Text → ℕ → S → Option Account × S
  sweep : ℕ → S → S
  sessionCount : S → ℕ
  tokenize : Text → List Text
  parse : Text → K
  kind : K → ClassicKind
  keyword : K → Text
  handle : (Text → Option Account) → K → Text → ℕ → UInt64 → S × E → Text × S × E

/-- The rest of the world: the clock, in microseconds, the gNMI server a
`LocalGnmiSink` reaches at a host and port, and the transport. -/
structure Devices (E : Type) where
  clock : E → ℕ × E
  sink : Text → ℕ → GnmiSink E
  send : Text → Text → E → Bool × E

namespace Smsctl

variable {S K E : Type} (C : Smsctl S K E)

/-- A session with this account is there to be found, by some sender at
some time. -/
def Holds (s : S) (a : Account) : Prop := ∃ sender now, (C.session sender now s).1 = some a

/-- **What the daemons rely on.** A session comes from a login, and a login
takes its account from the lookup. -/
structure Lawful : Prop where
  empty_holds_none : ∀ a, ¬ C.Holds C.empty a
  setConfig_opens_none : ∀ cfg s a, C.Holds (C.setConfig cfg s) a → C.Holds s a
  session_opens_none : ∀ sender now s a, C.Holds (C.session sender now s).2 a → C.Holds s a
  sweep_opens_none : ∀ now s a, C.Holds (C.sweep now s) a → C.Holds s a
  login_looks_up : ∀ lookup k sender now seed s e a,
    C.Holds (C.handle lookup k sender now seed (s, e)).2.1 a →
      C.Holds s a ∨ ∃ id, lookup id = some a

end Smsctl

/-! ## What the daemons share -/

/-- `m_sessions` and `m_handled`, with the world they run in. -/
structure Engine (S E : Type) where
  sessions : S
  handled : UInt64 := 0
  ext : E

namespace Engine

variable {S K E α : Type} (C : Smsctl S K E) (D : Devices E)

/-- What a device's function sees and changes. -/
def onExt (f : E → α × E) (s : Engine S E) : α × Engine S E :=
  ((f s.ext).1, { s with ext := (f s.ext).2 })

/-- The right of the sender's session, now. -/
def access (sender : Text) (s : Engine S E) : Access × Engine S E :=
  let now := D.clock s.ext
  let acc := C.session sender (now.1 / 1000000) s.sessions
  (senderAccess acc.1, { s with sessions := acc.2, ext := now.2 })

/-- `smsctl::Executor::handle` of a command, at a time, with a seed made of
`salt` and of how many commands there were. -/
def handle (lookup : Text → Option Account) (cmd : K) (sender : Text) (now salt : ℕ)
    (s : Engine S E) : Text × Engine S E :=
  let handled := s.handled + 1
  let r := C.handle lookup cmd sender now (UInt64.ofNat salt * 2654435761 + handled)
    (s.sessions, s.ext)
  (r.1, { sessions := r.2.1, handled := handled, ext := r.2.2 })

/-- `m_sessions.sweep`, now. -/
def sweep (s : Engine S E) : Engine S E :=
  let now := D.clock s.ext
  { s with sessions := C.sweep (now.1 / 1000000) s.sessions, ext := now.2 }

/-- **Every session's account is one of `P`.** -/
def Opened (P : Account → Prop) (s : Engine S E) : Prop := ∀ a, C.Holds s.sessions a → P a

variable {C D} {P : Account → Prop} {s : Engine S E}

theorem Opened.mono {Q : Account → Prop} (h : s.Opened C P) (hPQ : ∀ a, P a → Q a) :
    s.Opened C Q :=
  fun a ha => hPQ a (h a ha)

theorem Opened.onExt (h : s.Opened C P) (f : E → α × E) : (s.onExt f).2.Opened C P := h

theorem Opened.access (hC : C.Lawful) (h : s.Opened C P) (sender : Text) :
    (s.access C D sender).2.Opened C P :=
  fun a ha => h a (hC.session_opens_none _ _ _ a ha)

/-- The right it finds is that of an account of `P`. -/
theorem Opened.exists_of_access (h : s.Opened C P) {sender : Text} {acc : Access}
    (hacc : (s.access C D sender).1 = acc) (hne : acc ≠ .none) :
    ∃ a, P a ∧ (acc = .admin → a.access = "Admin".toList) := by
  unfold Engine.access at hacc
  dsimp only at hacc
  cases ha : (C.session sender ((D.clock s.ext).1 / 1000000) s.sessions).1 with
  | none =>
    rw [ha] at hacc
    exact absurd hacc.symm hne
  | some a =>
    refine ⟨a, h a ⟨sender, _, ha⟩, fun hadmin => ?_⟩
    rw [ha, hadmin, senderAccess] at hacc
    by_contra hviewer
    rw [if_neg hviewer] at hacc
    cases hacc

theorem Opened.handle (hC : C.Lawful) (h : s.Opened C P) {lookup : Text → Option Account}
    (hlookup : ∀ id a, lookup id = some a → P a) (cmd : K) (sender : Text) (now salt : ℕ) :
    (s.handle C lookup cmd sender now salt).2.Opened C P := by
  intro a ha
  rcases hC.login_looks_up _ _ _ _ _ _ _ a ha with ha | ⟨id, hid⟩
  · exact h a ha
  · exact hlookup id a hid

theorem Opened.sweep (hC : C.Lawful) (h : s.Opened C P) : (s.sweep C D).Opened C P :=
  fun a ha => h a (hC.sweep_opens_none _ _ a ha)

end Engine

/-! ## An engine -/

end ZeroTouch
