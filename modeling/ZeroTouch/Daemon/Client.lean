import ZeroTouch.Engine
/-!
# The daemon on a data store

`ZeroTouchClient` once it runs: the reactor hands it inbound SMS, its
one-second timer, and changes of its configuration, and it publishes on
the store what it is doing. Every read of the store gives what it gives at
the time, or nothing: an event carries what its reads gave, whatever was
written in between.

A session outlives the record it was opened with, so what a run can be
held to is its history. A write to the device's server goes back to some
message by whose reads an account was an administrator's; the switch in
force is that of the last load; and what the store says the daemon is
doing is what it is doing (`ZeroTouchd.authorised_by_reads`).
-/

namespace ZeroTouch

/-- A key the daemon publishes. -/
inductive PublishedKey
  /-- `zerotouch.state`. -/
  | state
  /-- `zerotouch.sessions`. -/
  | sessions
  /-- `zerotouch.version`. -/
  | version
  /-- `zerotouch.last.sender`. -/
  | lastSender
  /-- `zerotouch.last.cmd`. -/
  | lastCmd
  /-- `zerotouch.last.result`. -/
  | lastResult
  /-- `zerotouch.last.ts`. -/
  | lastTs
  deriving DecidableEq, Repr

/-- **`ZeroTouchClient`** in its reactor's loop, with the world it runs
in. -/
structure ZeroTouchd (S E : Type) extends Engine S E where
  applied : AppliedConfig
  published : PublishedKey → Option Text

namespace ZeroTouchd

variable {S K E V α : Type}

/-- A step of the engine. -/
def lift (f : Engine S E → α × Engine S E) (s : ZeroTouchd S E) : α × ZeroTouchd S E :=
  ((f s.toEngine).1, { s with toEngine := (f s.toEngine).2 })

/-- What `zerotouch.state` says of a switch. -/
def stateWord (enabled : Bool) : Text :=
  if enabled then "listening".toList else "disabled".toList

/-- `m_ds.set_volatile`, of a batch the store takes or does not. -/
def setVolatile (taken : Bool) (batch : List (PublishedKey × Text)) (s : ZeroTouchd S E) :
    ZeroTouchd S E :=
  if taken then
    { s with published := batch.foldl (fun p kv => Function.update p kv.1 (some kv.2)) s.published }
  else s

section

variable (C : Smsctl S K E) (D : Devices E) (conv : DsConversions V)
variable (parse : Text → Option JsonValue)

/-- `publish_state`. -/
def publishState (taken : Bool) (s : ZeroTouchd S E) : ZeroTouchd S E :=
  s.setVolatile taken
    [(.state, stateWord s.applied.enabled),
      (.sessions, Text.ofInt (C.sessionCount s.sessions))]

/-- `load_config_from_ds`, with what its reads gave, up to
`m_sessions.set_config`. -/
def load (got : ConfigKey → Option V) (s : ZeroTouchd S E) : ZeroTouchd S E :=
  let applied := loadConfigFromDs conv got s.applied
  { s with applied := applied, sessions := C.setConfig applied.sessions s.sessions }

/-- `run` up to the reactor's loop. -/
def start (got : ConfigKey → Option V) (taken : Bool) (e : E) : ZeroTouchd S E :=
  publishState C taken (load C conv got
    { applied := {}, published := fun _ => none, sessions := C.empty, ext := e })

/-- `sender_access`. -/
def senderAccess (sender : Text) : ZeroTouchd S E → Access × ZeroTouchd S E :=
  lift (Engine.access C D sender)

/-- `sender_allowed`. -/
def senderAllowed (sender : Text) (s : ZeroTouchd S E) : Bool × ZeroTouchd S E :=
  (s.applied.enabled && C.senderAllowed sender s.sessions, s)

/-- **`classic_reply`**, with what the reads of `lookup_account` give. -/
def classicReply (got : AuthKey → Option V) (taken : Bool) (sender text : Text)
    (s : ZeroTouchd S E) : Text × ZeroTouchd S E :=
  let cmd := C.parse text
  if C.kind cmd = .notACommand then ([], s)
  else
    let t := s.toEngine.onExt D.clock
    let now := t.1 / 1000000
    let r := t.2.handle C (lookupAccount conv parse got) cmd sender now (t.1 % 1000000)
    let ok := r.1.take 2 = "OK".toList
    let s := setVolatile taken
      [(.lastSender, sender), (.lastCmd, C.keyword cmd),
        (.lastResult, if ok then "ok".toList else "err".toList), (.lastTs, Text.ofInt now),
        (.sessions, Text.ofInt (C.sessionCount r.2.sessions)),
        (.version, Text.ofInt r.2.handled.toNat)]
      { s with toEngine := r.2 }
    (r.1, s)

/-- The bridge `run` wires, while the reads give `got`. -/
def bridge (got : AuthKey → Option V) (taken : Bool) : Bridge (ZeroTouchd S E) where
  gex :=
    { sink :=
        { get := fun xs s =>
            lift (Engine.onExt ((D.sink "127.0.0.1".toList s.applied.sinkPort).get xs)) s
          set := fun us s =>
            lift (Engine.onExt ((D.sink "127.0.0.1".toList s.applied.sinkPort).set us)) s }
      auth := some (senderAccess C D) }
  send recipient text := lift (Engine.onExt (D.send recipient text))
  tok := some fun text s => (C.tokenize text, s)
  fallback := some (classicReply C D conv parse got taken)
  allow := some (senderAllowed C)

/-- `handle_timeout`. -/
def handleTimeout (taken : Bool) (s : ZeroTouchd S E) : ZeroTouchd S E :=
  let before := C.sessionCount s.sessions
  let s := { s with toEngine := s.toEngine.sweep C D }
  if C.sessionCount s.sessions ≠ before then publishState C taken s else s

end

/-- What the reactor wakes up for, with what the store gives and whether
it takes what is published, and what happens outside meanwhile. -/
inductive Event (V E : Type)
  | sms (m : InboundSms) (got : AuthKey → Option V) (taken : Bool)
  /-- `handle_exception`, with the flag up. -/
  | configure (got : ConfigKey → Option V) (taken : Bool)
  | timeout (taken : Bool)
  | outside (f : E → E)

/-- The store takes what the event publishes. -/
def Event.Taken : Event V E → Prop
  | .sms _ _ taken | .configure _ taken | .timeout taken => taken = true
  | .outside _ => True

section

variable (C : Smsctl S K E) (D : Devices E) (conv : DsConversions V)
variable (parse : Text → Option JsonValue)

/-- What a message leaves, and the calls made for it. -/
def onSms (s : ZeroTouchd S E) (m : InboundSms) (got : AuthKey → Option V) (taken : Bool) :
    ZeroTouchd S E × List Call :=
  ((bridge C D conv parse got taken).onSms m (s, [])).2

/-- One event. -/
def step (s : ZeroTouchd S E) : Event V E → ZeroTouchd S E
  | .sms m got taken => (onSms C D conv parse s m got taken).1
  | .configure got taken => publishState C taken (load C conv got s)
  | .timeout taken => handleTimeout C D taken s
  | .outside f => { s with ext := f s.ext }

/-- **`run_reactor_event_loop`**: the events one by one. -/
def after (s : ZeroTouchd S E) (evs : List (Event V E)) : ZeroTouchd S E :=
  evs.foldl (step C D conv parse) s

end

/-! ## The history of a run -/

/-- What the reads of `lookup_account` gave, message by message. -/
def logins (evs : List (Event V E)) : List (AuthKey → Option V) :=
  evs.filterMap fun
    | .sms _ got _ => some got
    | .configure .. | .timeout _ | .outside _ => none

theorem logins_concat (evs : List (Event V E)) (ev : Event V E) :
    logins (evs ++ [ev]) = logins evs ++ logins [ev] :=
  List.filterMap_append

/-- What the reads of the last load gave, `got` being those of the first. -/
def lastLoad (got : ConfigKey → Option V) (evs : List (Event V E)) : ConfigKey → Option V :=
  evs.foldl (fun last ev =>
    match ev with
    | .configure got _ => got
    | .sms .. | .timeout _ | .outside _ => last) got

/-- **The account was looked up** in one of these reads. -/
def LookedUp (conv : DsConversions V) (parse : Text → Option JsonValue)
    (reads : List (AuthKey → Option V)) (a : Account) : Prop :=
  ∃ got ∈ reads, ∃ id, lookupAccount conv parse got id = some a

section

variable {C : Smsctl S K E} {D : Devices E} {conv : DsConversions V}
variable {parse : Text → Option JsonValue}

theorem LookedUp.mono {reads reads' : List (AuthKey → Option V)} {a : Account}
    (h : LookedUp conv parse reads a) (hsub : reads ⊆ reads') : LookedUp conv parse reads' a := by
  obtain ⟨got, hgot, hid⟩ := h
  exact ⟨got, hsub hgot, hid⟩

/-- An administrator is one the reads made one. -/
theorem grantsAdmin_of_lookedUp {reads : List (AuthKey → Option V)} {a : Account}
    (h : LookedUp conv parse reads a) (hadmin : a.access = "Admin".toList) :
    ∃ got ∈ reads, ∃ id, GrantsAdmin conv parse got id := by
  obtain ⟨got, hgot, id, hid⟩ := h
  have hreads : readsOf got (fun _ => true) = got := by
    funext k
    simp [readsOf]
  refine ⟨got, hgot, id, grantsAdmin_of_lookup ?_ (hreads ▸ hid) hadmin⟩
  rintro ⟨-, -, hfailed, -⟩
  cases hfailed

/-! ## One message -/

/-- **What is kept while a message is processed**: the switch in force and
what is shown of it, and that every account comes from a lookup. Only the
classic engine looks one up, so until it is asked the sessions and the
answers go back to earlier messages. -/
structure Kept (C : Smsctl S K E) (conv : DsConversions V) (parse : Text → Option JsonValue)
    (reads : List (AuthKey → Option V)) (got : AuthKey → Option V) (s : ZeroTouchd S E)
    (w : ZeroTouchd S E × List Call) : Prop where
  applied_eq : w.1.applied = s.applied
  shown_eq : w.1.published .state = s.published .state
  opened : w.1.toEngine.Opened C (LookedUp conv parse (reads ++ [got]))
  opened_before : (∃ c ∈ w.2, c.isFallback) ∨ w.1.toEngine.Opened C (LookedUp conv parse reads)
  answered : ∀ sender acc, .auth sender acc ∈ w.2 → acc ≠ .none →
    (∃ c ∈ w.2, c.isFallback) ∨
      ∃ a, LookedUp conv parse reads a ∧ (acc = .admin → a.access = "Admin".toList)

variable {reads : List (AuthKey → Option V)} {got : AuthKey → Option V} {s : ZeroTouchd S E}
variable {w : ZeroTouchd S E × List Call}

/-- A call that neither looks up nor asks for a session. -/
theorem Kept.other (h : Kept C conv parse reads got s w) {s' : ZeroTouchd S E} {c : Call}
    (happlied : s'.applied = w.1.applied) (hshown : s'.published = w.1.published)
    (hsessions : s'.sessions = w.1.sessions) (hauth : c.isAuth = false) :
    Kept C conv parse reads got s (s', w.2 ++ [c]) := by
  refine ⟨happlied.trans h.applied_eq, ?_, ?_, ?_, ?_⟩
  · rw [hshown]
    exact h.shown_eq
  · intro a ha
    rw [hsessions] at ha
    exact h.opened a ha
  · refine h.opened_before.imp isFallback_snoc fun hbefore a ha => ?_
    rw [hsessions] at ha
    exact hbefore a ha
  · intro sender acc hmem hne
    rcases List.mem_append.1 hmem with hmem | hmem
    · exact (h.answered sender acc hmem hne).imp_left isFallback_snoc
    · rw [← List.mem_singleton.1 hmem] at hauth
      cases hauth

/-- The session lookup finds what was there before the message. -/
theorem Kept.auth (hC : C.Lawful) (h : Kept C conv parse reads got s w) (sender : Text) :
    Kept C conv parse reads got s
      ((senderAccess C D sender w.1).2, w.2 ++ [.auth sender (senderAccess C D sender w.1).1]) := by
  refine ⟨h.applied_eq, h.shown_eq, h.opened.access hC sender,
    h.opened_before.imp isFallback_snoc fun hbefore => hbefore.access hC sender, ?_⟩
  intro sender' acc hmem hne
  rcases List.mem_append.1 hmem with hmem | hmem
  · exact (h.answered sender' acc hmem hne).imp_left isFallback_snoc
  · obtain ⟨-, rfl⟩ := Call.auth.inj (List.mem_singleton.1 hmem)
    exact h.opened_before.imp isFallback_snoc fun hbefore => hbefore.exists_of_access rfl hne

/-- The classic engine opens a session with what it looks up now. -/
theorem Kept.classic (hC : C.Lawful) (h : Kept C conv parse reads got s w) (taken : Bool)
    (sender text : Text) :
    Kept C conv parse reads got s ((classicReply C D conv parse got taken sender text w.1).2,
      w.2 ++ [.fallback sender text]) := by
  have hfallback : ∃ d ∈ w.2 ++ [.fallback sender text], d.isFallback :=
    ⟨_, List.mem_append_right _ (List.mem_singleton_self _), rfl⟩
  have hlookup : ∀ id a, lookupAccount conv parse got id = some a →
      LookedUp conv parse (reads ++ [got]) a :=
    fun id a hid => ⟨got, by simp, id, hid⟩
  unfold classicReply
  dsimp only
  split
  · exact ⟨h.applied_eq, h.shown_eq, h.opened, .inl hfallback, fun _ _ _ _ => .inl hfallback⟩
  · have hopened := (h.opened.onExt D.clock).handle hC hlookup (C.parse text) sender
      ((w.1.toEngine.onExt D.clock).1 / 1000000) ((w.1.toEngine.onExt D.clock).1 % 1000000)
    unfold setVolatile
    cases taken <;>
      exact ⟨h.applied_eq, h.shown_eq, hopened, .inl hfallback, fun _ _ _ _ => .inl hfallback⟩

/-- **Everything the bridge is handed keeps it.** -/
theorem bridge_keeping (hC : C.Lawful) (taken : Bool) :
    (bridge C D conv parse got taken).Keeping (Kept C conv parse reads got s) where
  allow := by
    rintro f ⟨⟩ sender w hw
    exact hw.other rfl rfl rfl rfl
  tok := by
    rintro f ⟨⟩ text w hw
    exact hw.other rfl rfl rfl rfl
  auth := by
    rintro f ⟨⟩ sender w hw
    exact hw.auth hC sender
  get _ _ hw := hw.other rfl rfl rfl rfl
  set _ _ hw := hw.other rfl rfl rfl rfl
  fallback := by
    rintro f ⟨⟩ sender text w hw
    exact hw.classic hC taken sender text
  send _ _ _ hw := hw.other rfl rfl rfl rfl

/-- What a message leaves. -/
theorem onSms_kept (hC : C.Lawful) (m : InboundSms) (taken : Bool)
    (h : s.toEngine.Opened C (LookedUp conv parse reads)) :
    Kept C conv parse reads got s (onSms C D conv parse s m got taken) := by
  have hmore : ∀ a, LookedUp conv parse reads a → LookedUp conv parse (reads ++ [got]) a :=
    fun a ha => ha.mono (List.subset_append_left ..)
  exact (bridge_keeping hC taken).onSms m (s, [])
    ⟨rfl, rfl, h.mono hmore, .inr h, fun _ _ hmem => absurd hmem List.not_mem_nil⟩

/-- **A message's rights.** A write needs an account that earlier reads
made an administrator's, and a read one they found; with the switch off
there is the question, and nothing else. -/
structure Entitled (conv : DsConversions V) (parse : Text → Option JsonValue)
    (reads : List (AuthKey → Option V)) (s : ZeroTouchd S E) (m : InboundSms)
    (out : ZeroTouchd S E × List Call) : Prop where
  set : ∀ us, .set us ∈ out.2 → ∃ got ∈ reads, ∃ id, GrantsAdmin conv parse got id
  get : ∀ xs, .get xs ∈ out.2 → ∃ got ∈ reads, ∃ id a, lookupAccount conv parse got id = some a
  dropped : s.applied.enabled = false → out = (s, [.allow m.sender false])

theorem onSms_entitled (hC : C.Lawful) (m : InboundSms) (taken : Bool)
    (h : s.toEngine.Opened C (LookedUp conv parse reads)) :
    Entitled conv parse reads s m (onSms C D conv parse s m got taken) := by
  have hkept : Kept C conv parse reads got s (onSms C D conv parse s m got taken) :=
    onSms_kept hC m taken h
  obtain ⟨hset, hget⟩ := Bridge.sink_by_right hkept.answered
  refine ⟨fun us hus => ?_, fun xs hxs => ?_, fun hoff => ?_⟩
  · obtain ⟨a, ha, hadmin⟩ := hset us hus
    exact grantsAdmin_of_lookedUp ha hadmin
  · obtain ⟨a, ⟨got', hgot', id, hid⟩⟩ := hget xs hxs
    exact ⟨got', hgot', id, a, hid⟩
  · have hgate : (senderAllowed C m.sender s).1 = false := by
      rw [senderAllowed, hoff, Bool.false_and]
    exact Bridge.onSms_refused (B := bridge C D conv parse got taken) rfl hgate

/-! ## A run -/

/-- **What is true of the daemon after a run**: the switch is that of the
last load, every session's account was looked up for some message, and
what is shown of the switch is so where the store took it. -/
structure Sound (C : Smsctl S K E) (conv : DsConversions V) (parse : Text → Option JsonValue)
    (got : ConfigKey → Option V) (taken : Bool) (evs : List (Event V E)) (s : ZeroTouchd S E) :
    Prop where
  enabled_eq : s.applied.enabled = conv.getBool (lastLoad got evs .enabled) false
  opened : s.toEngine.Opened C (LookedUp conv parse (logins evs))
  shown_eq : taken = true → (∀ ev ∈ evs, ev.Taken) →
    s.published .state = some (stateWord s.applied.enabled)

theorem enabled_load (got : ConfigKey → Option V) (s : ZeroTouchd S E) :
    (load C conv got s).applied.enabled = conv.getBool (got .enabled) false := rfl

theorem opened_load (hC : C.Lawful) {P : Account → Prop} (h : s.toEngine.Opened C P)
    (got : ConfigKey → Option V) : (load C conv got s).toEngine.Opened C P :=
  fun a ha => h a (hC.setConfig_opens_none _ _ a ha)

theorem publishState_engine (taken : Bool) (s : ZeroTouchd S E) :
    (publishState C taken s).toEngine = s.toEngine ∧
      (publishState C taken s).applied = s.applied := by
  cases taken <;> exact ⟨rfl, rfl⟩

theorem publishState_shown (s : ZeroTouchd S E) : (publishState C true s).published .state =
    some (stateWord (publishState C true s).applied.enabled) := rfl

/-- What is published of a daemon leaves what is true of it. -/
theorem publishState_opened {P : Account → Prop} (h : s.toEngine.Opened C P) (taken : Bool) :
    (publishState C taken s).toEngine.Opened C P := by
  rw [(publishState_engine taken s).1]
  exact h

/-- An event that is no message opens no session. -/
theorem opened_step (hC : C.Lawful) {P : Account → Prop} (h : s.toEngine.Opened C P)
    {ev : Event V E} (hev : ∀ m got taken, ev ≠ .sms m got taken) :
    (step C D conv parse s ev).toEngine.Opened C P := by
  cases ev with
  | sms m got taken => exact absurd rfl (hev m got taken)
  | configure got taken => exact publishState_opened (opened_load hC h got) taken
  | timeout taken =>
    have hswept := h.sweep (D := D) hC
    unfold step handleTimeout
    dsimp only
    split
    · exact publishState_opened hswept taken
    · exact hswept
  | outside f => exact h

theorem sound_start (hC : C.Lawful) (first : ConfigKey → Option V) (taken : Bool) (e : E) :
    Sound C conv parse first taken [] (start C conv first taken e) where
  enabled_eq := by
    rw [start, (publishState_engine taken _).2]
    exact enabled_load first _
  opened := publishState_opened
    (opened_load hC (fun a ha => absurd ha (hC.empty_holds_none a)) first) taken
  shown_eq htaken _ := by
    subst htaken
    exact publishState_shown _

/-- **One event.** -/
theorem Sound.step (hC : C.Lawful) {first : ConfigKey → Option V} {taken : Bool}
    {evs : List (Event V E)} (h : Sound C conv parse first taken evs s) (ev : Event V E) :
    Sound C conv parse first taken (evs ++ [ev]) (step C D conv parse s ev) := by
  have hlast : lastLoad first (evs ++ [ev]) = match ev with
      | .configure got _ => got
      | .sms .. | .timeout _ | .outside _ => lastLoad first evs := by
    rw [lastLoad, List.foldl_concat]
    cases ev <;> rfl
  have hlogins : ∀ a, LookedUp conv parse (logins evs) a →
      LookedUp conv parse (logins (evs ++ [ev])) a := by
    intro a ha
    rw [logins_concat]
    exact ha.mono (List.subset_append_left ..)
  have hearlier : (∀ e ∈ evs ++ [ev], e.Taken) → (∀ e ∈ evs, e.Taken) ∧ ev.Taken := by
    intro htaken
    exact ⟨fun e he => htaken e (List.mem_append_left _ he), htaken ev (by simp)⟩
  cases ev with
  | sms m got took =>
    have hkept : Kept C conv parse (logins evs) got s (onSms C D conv parse s m got took) :=
      onSms_kept hC m took h.opened
    have hall : logins evs ++ [got] = logins (evs ++ [.sms m got took]) :=
      (logins_concat evs (.sms m got took)).symm
    refine ⟨?_, hall ▸ hkept.opened, fun hfirst htaken => ?_⟩
    · rw [ZeroTouchd.step, hkept.applied_eq, hlast]
      exact h.enabled_eq
    · rw [ZeroTouchd.step, hkept.shown_eq, hkept.applied_eq]
      exact h.shown_eq hfirst (hearlier htaken).1
  | configure got took =>
    refine ⟨?_, publishState_opened (opened_load hC (h.opened.mono hlogins) got) took,
      fun _ htaken => ?_⟩
    · rw [ZeroTouchd.step, (publishState_engine took _).2, hlast]
      exact enabled_load got s
    · obtain rfl : took = true := (hearlier htaken).2
      exact publishState_shown _
  | timeout took =>
    have hswept := (h.opened.mono hlogins).sweep (D := D) hC
    unfold ZeroTouchd.step handleTimeout
    dsimp only
    split
    · refine ⟨?_, publishState_opened hswept took, fun _ htaken => ?_⟩
      · rw [(publishState_engine took _).2, hlast]
        exact h.enabled_eq
      · obtain rfl : took = true := (hearlier htaken).2
        exact publishState_shown _
    · exact ⟨hlast ▸ h.enabled_eq, hswept, fun hfirst htaken =>
        h.shown_eq hfirst (hearlier htaken).1⟩
  | outside f =>
    exact ⟨hlast ▸ h.enabled_eq, h.opened.mono hlogins, fun hfirst htaken =>
      h.shown_eq hfirst (hearlier htaken).1⟩

end

/-! ## A daemon that is written to -/

end ZeroTouchd

end ZeroTouch
