import ZeroTouch.Engine
import ZeroTouch.Standalone.Config
import ZeroTouch.Standalone.Users
/-!
# The standalone daemon

`StandaloneClient`: what its two files say is read once, and from then on
the reactor runs its timer and hands each inbound SMS to the bridge. The
bridge's gate is the switch of the configuration and the session store's
allowlist; the right it asks for is that of the sender's session; and the
accounts a session can be opened with are the users of the second file.

So no run writes to the device's server but by the right of the users
file's own record, and a daemon whose file does not switch it on is inert
(`StandaloneClient.authorised_by_files`).
-/

namespace ZeroTouch

/-- **`StandaloneClient`**, with the world it runs in. -/
structure StandaloneClient (S E : Type) extends Engine S E where
  config : AppConfig
  users : UserStore

/-- `read_file`: a file that cannot be opened reads as empty. -/
def readFile (files : Text → Option Text) (path : Text) : Text := (files path).getD []

namespace StandaloneClient

variable {S K E α : Type}

/-- A step of the engine. -/
def lift (f : Engine S E → α × Engine S E) (s : StandaloneClient S E) : α × StandaloneClient S E :=
  ((f s.toEngine).1, { s with toEngine := (f s.toEngine).2 })

section

variable (C : Smsctl S K E) (D : Devices E)

/-- The start of `run`: what the files say. -/
def start (files : Text → Option Text) (path : Text) (e : E) : StandaloneClient S E :=
  let config := parseConfig (readFile files path)
  { config
    users := UserStore.parse (readFile files config.usersFile)
    sessions := C.setConfig
      { sessionTtlSec := config.sessionTtlSec.toNat
        lockoutFailures := config.lockoutFailures.toNat
        lockoutSec := config.lockoutSec.toNat
        allowedNumbers := config.allowedNumbers } C.empty
    ext := e }

/-- `lookup`. -/
def lookup (users : UserStore) (id : Text) : Option Account :=
  (users.lookup id).map fun u => ⟨u.id, u.hash, u.access⟩

/-- `authfn`. -/
def authfn (sender : Text) : StandaloneClient S E → Access × StandaloneClient S E :=
  lift (Engine.access C D sender)

/-- `allow`. -/
def allow (sender : Text) (s : StandaloneClient S E) : Bool × StandaloneClient S E :=
  (s.config.enabled && C.senderAllowed sender s.sessions, s)

/-- `fallback`. -/
def fallback (sender text : Text) (s : StandaloneClient S E) : Text × StandaloneClient S E :=
  let cmd := C.parse text
  match C.kind cmd with
  | .notACommand => ([], s)
  | .wifi | .factoryReset =>
    ("ERR ".toList ++ C.keyword cmd ++ ": not supported on this device".toList, s)
  | .other =>
    let t := s.toEngine.onExt D.clock
    let now := t.1 / 1000000
    let r := t.2.handle C (lookup s.users) cmd sender now now
    (r.1, { s with toEngine := r.2 })

/-- The bridge `run` wires. -/
def bridge : Bridge (StandaloneClient S E) where
  gex :=
    { sink :=
        { get := fun xs s =>
            lift (Engine.onExt ((D.sink s.config.gnmiHost s.config.gnmiPort.toNat).get xs)) s
          set := fun us s =>
            lift (Engine.onExt ((D.sink s.config.gnmiHost s.config.gnmiPort.toNat).set us)) s }
      auth := some (authfn C D) }
  send recipient text := lift (Engine.onExt (D.send recipient text))
  tok := some fun text s => (C.tokenize text, s)
  fallback := some (fallback C D)
  allow := some (allow C)

end

/-- What the reactor wakes up for, and what happens outside meanwhile. -/
inductive Event (E : Type)
  | sms (m : InboundSms)
  | timeout
  | outside (f : E → E)

/-- An event that is no message. -/
def Event.isSilent : Event E → Bool
  | .sms _ => false
  | .timeout | .outside _ => true

/-- One event, with the messages it processed and the calls made for
each. -/
def step (C : Smsctl S K E) (D : Devices E) (s : StandaloneClient S E) :
    Event E → StandaloneClient S E × List (InboundSms × List Call)
  | .sms m =>
    let w := ((bridge C D).onSms m (s, [])).2
    (w.1, [(m, w.2)])
  -- `handle_timeout`
  | .timeout => ({ s with toEngine := s.toEngine.sweep C D }, [])
  | .outside f => ({ s with ext := f s.ext }, [])

/-- **`run_reactor_event_loop`**: the events one by one. -/
def run (C : Smsctl S K E) (D : Devices E) :
    StandaloneClient S E → List (Event E) → StandaloneClient S E × List (InboundSms × List Call)
  | s, [] => (s, [])
  | s, ev :: evs =>
    let r := step C D s ev
    let t := run C D r.1 evs
    (t.1, r.2 ++ t.2)

/-! ## What the files must say -/

/-- **The configuration file switches the daemon on**: its last line for
the switch says so. -/
def SwitchedOn (text : Text) : Prop :=
  ∃ v, (valuesFor .enabled text).getLast? = some v ∧ toBool v = true

/-- **The last record of the id** in a users file. -/
def LastRecord (text id second third : Text) : Prop :=
  ∃ before raw after, getlines text = before ++ raw :: after ∧
    RecordFor id (cleanLine raw) second third ∧
    ∀ later ∈ after, ∀ s t, ¬ RecordFor id (cleanLine later) s t

/-- The users file the configuration names. -/
def usersText (files : Text → Option Text) (path : Text) : Text :=
  readFile files (parseConfig (readFile files path)).usersFile

/-- **What the calls made for a message take.** A message is dropped
unless the daemon is switched on; a write needs a user whose last record
says `Admin`, and a read one who has a record at all. -/
structure Authorised (conf users : Text) (m : InboundSms) (trace : List Call) : Prop where
  switched : SwitchedOn conf ∨ trace = [.allow m.sender false]
  set : ∀ us, .set us ∈ trace →
    ∃ id second third, LastRecord users id second third ∧ trim third = "Admin".toList
  get : ∀ xs, .get xs ∈ trace → ∃ id second third, LastRecord users id second third

theorem enabled_parseConfig_iff {text : Text} :
    (parseConfig text).enabled = true ↔ SwitchedOn text := by
  have hfield : (parseConfig text).enabled =
      (valuesFor .enabled text).foldl (fun _ v => toBool v) false :=
    field_parseConfig .enabled text
  rw [hfield, foldl_replace toBool, SwitchedOn]
  cases (valuesFor .enabled text).getLast? <;> simp

/-- A user that is looked up has a last record, which says what is
found. -/
theorem lastRecord_of_lookup {text id : Text} {u : User}
    (h : (UserStore.parse text).lookup id = some u) :
    ∃ second third, LastRecord text id second third ∧ u = userFor id second third := by
  rw [lookup_parse] at h
  obtain ⟨earlier, hlast⟩ := List.getLast?_eq_some_iff.1 h
  obtain ⟨before, rest, hlines, -, hrest⟩ := List.filterMap_eq_append_iff.1 hlast
  obtain ⟨skipped, raw, after, rfl, -, hraw, hafter⟩ := List.filterMap_eq_cons_iff.1 hrest
  obtain ⟨second, third, hrec, hu⟩ := recordOf_eq_some_iff.1 hraw
  refine ⟨second, third, ⟨before ++ skipped, raw, after, ?_, hrec, fun later hl => ?_⟩, hu⟩
  · rw [hlines, List.append_assoc]
  · exact recordOf_eq_none_iff.1 (List.filterMap_eq_nil_iff.1 hafter later hl)

/-! ## What every event keeps -/

/-- The users file has the account. -/
def InFile (users : Text) (a : Account) : Prop :=
  ∃ id, lookup (UserStore.parse users) id = some a

/-- An account of the file has a last record, which gives it its right. -/
theorem InFile.exists_lastRecord {users : Text} {a : Account} (h : InFile users a) :
    ∃ id second third, LastRecord users id second third ∧
      (a.access = "Admin".toList → trim third = "Admin".toList) := by
  obtain ⟨id, hid⟩ := h
  obtain ⟨u, hu, rfl⟩ := Option.map_eq_some_iff.1 hid
  obtain ⟨second, third, hlast, rfl⟩ := lastRecord_of_lookup hu
  refine ⟨id, second, third, hlast, fun hadmin => ?_⟩
  by_contra hthird
  have haccess : (userFor id second third).access = "Viewer".toList := if_neg hthird
  have hne : "Viewer".toList ≠ "Admin".toList := by decide
  exact hne (haccess.symm.trans hadmin)

/-- **The calls made for a message have the right of an account of `P`**:
it is dropped unless the daemon is switched on, a write needs one that is
an administrator's, and a read any. -/
structure ByRight (conf : Text) (P : Account → Prop) (m : InboundSms) (trace : List Call) :
    Prop where
  switched : SwitchedOn conf ∨ trace = [.allow m.sender false]
  set : ∀ us, .set us ∈ trace → ∃ a, P a ∧ a.access = "Admin".toList
  get : ∀ xs, .get xs ∈ trace → ∃ a, P a

section

variable {C : Smsctl S K E} {D : Devices E} {conf users : Text} {P : Account → Prop}

/-- What was read at the start is still there, and every session is of an
account of `P`. -/
structure Genuine (C : Smsctl S K E) (conf users : Text) (P : Account → Prop)
    (s : StandaloneClient S E) : Prop where
  config_eq : s.config = parseConfig conf
  users_eq : s.users = UserStore.parse users
  opened : s.toEngine.Opened C P

/-- **What holds while a message is processed**: a session goes back to
before it, or to a login by the message itself, and so does what the
session lookup answers. -/
structure Handling (C : Smsctl S K E) (conf users : Text) (P : Account → Prop)
    (w : StandaloneClient S E × List Call) : Prop where
  genuine : Genuine C conf users
    (fun a => P a ∨ (∃ c ∈ w.2, c.isFallback) ∧ InFile users a) w.1
  answered : ∀ sender acc, .auth sender acc ∈ w.2 → acc ≠ .none →
    (∃ c ∈ w.2, c.isFallback) ∨ ∃ a, P a ∧ (acc = .admin → a.access = "Admin".toList)

/-- A call that neither logs in nor asks for a session. -/
theorem Handling.other {w : StandaloneClient S E × List Call} (h : Handling C conf users P w)
    {s' : StandaloneClient S E} {c : Call} (hconfig : s'.config = w.1.config)
    (husers : s'.users = w.1.users) (hsessions : s'.sessions = w.1.sessions)
    (hauth : c.isAuth = false) : Handling C conf users P (s', w.2 ++ [c]) := by
  refine ⟨⟨hconfig.trans h.genuine.config_eq, husers.trans h.genuine.users_eq, ?_⟩, ?_⟩
  · intro a ha
    rw [hsessions] at ha
    exact (h.genuine.opened a ha).imp_right fun ⟨hf, hin⟩ => ⟨isFallback_snoc hf, hin⟩
  · intro sender acc hmem hne
    rcases List.mem_append.1 hmem with hmem | hmem
    · exact (h.answered sender acc hmem hne).imp_left isFallback_snoc
    · rw [← List.mem_singleton.1 hmem] at hauth
      cases hauth

/-- **Everything the bridge is handed keeps it.** -/
theorem bridge_keeping (hC : C.Lawful) : (bridge C D).Keeping (Handling C conf users P) where
  allow := by
    rintro f ⟨⟩ sender w hw
    exact hw.other rfl rfl rfl rfl
  tok := by
    rintro f ⟨⟩ text w hw
    exact hw.other rfl rfl rfl rfl
  auth := by
    rintro f ⟨⟩ sender w hw
    refine ⟨⟨hw.genuine.config_eq, hw.genuine.users_eq, ?_⟩, ?_⟩
    · exact (hw.genuine.opened.access hC sender).mono fun a ha =>
        ha.imp_right fun ⟨hf, hin⟩ => ⟨isFallback_snoc hf, hin⟩
    · intro sender' acc hmem hne
      rcases List.mem_append.1 hmem with hmem | hmem
      · exact (hw.answered sender' acc hmem hne).imp_left isFallback_snoc
      · obtain ⟨-, rfl⟩ := Call.auth.inj (List.mem_singleton.1 hmem)
        obtain ⟨a, ha | ⟨hf, -⟩, hright⟩ := hw.genuine.opened.exists_of_access rfl hne
        · exact .inr ⟨a, ha, hright⟩
        · exact .inl (isFallback_snoc hf)
  get _ _ hw := hw.other rfl rfl rfl rfl
  set _ _ hw := hw.other rfl rfl rfl rfl
  fallback := by
    rintro f ⟨⟩ sender text w hw
    have hnow : ∃ d ∈ w.2 ++ [.fallback sender text], d.isFallback :=
      ⟨_, List.mem_append_right _ (List.mem_singleton_self _), rfl⟩
    have hkept : w.1.toEngine.Opened C fun a => P a ∨
        (∃ d ∈ w.2 ++ [.fallback sender text], d.isFallback) ∧ InFile users a :=
      hw.genuine.opened.mono fun a ha => ha.imp_right fun h => ⟨hnow, h.2⟩
    refine ⟨?_, fun _ _ _ _ => .inl hnow⟩
    unfold fallback
    dsimp only
    split
    · exact ⟨hw.genuine.config_eq, hw.genuine.users_eq, hkept⟩
    · exact ⟨hw.genuine.config_eq, hw.genuine.users_eq, hkept⟩
    · exact ⟨hw.genuine.config_eq, hw.genuine.users_eq, hkept⟩
    · have hlookup : ∀ id a, lookup w.1.users id = some a → P a ∨
          (∃ d ∈ w.2 ++ [.fallback sender text], d.isFallback) ∧ InFile users a :=
        fun id a h => .inr ⟨hnow, id, hw.genuine.users_eq ▸ h⟩
      exact ⟨hw.genuine.config_eq, hw.genuine.users_eq,
        (hkept.onExt D.clock).handle hC hlookup _ _ _ _⟩
  send _ _ _ hw := hw.other rfl rfl rfl rfl

theorem genuine_start (hC : C.Lawful) (files : Text → Option Text) (path : Text) (e : E) :
    Genuine C (readFile files path) (usersText files path) P (start C files path e) :=
  ⟨rfl, rfl, fun a h => absurd (hC.setConfig_opens_none _ _ a h) (hC.empty_holds_none a)⟩

/-- **A message.** It is carried out by the right of a session there was
before it. -/
theorem Genuine.onSms (hC : C.Lawful) {s : StandaloneClient S E} (hs : Genuine C conf users P s)
    (m : InboundSms) :
    Handling C conf users P ((bridge C D).onSms m (s, [])).2 ∧
      ByRight conf P m ((bridge C D).onSms m (s, [])).2.2 := by
  have hkept : Handling C conf users P ((bridge C D).onSms m (s, [])).2 :=
    (bridge_keeping hC).onSms m (s, [])
      ⟨⟨hs.config_eq, hs.users_eq, hs.opened.mono fun _ => .inl⟩,
        fun _ _ hmem => absurd hmem List.not_mem_nil⟩
  obtain ⟨hset, hget⟩ := Bridge.sink_by_right hkept.answered
  refine ⟨hkept, ?_, hset, hget⟩
  by_cases hon : SwitchedOn conf
  · exact .inl hon
  · have hgate : (allow C m.sender s).1 = false := by
      have henabled : s.config.enabled = false := by
        rw [hs.config_eq, ← Bool.not_eq_true, enabled_parseConfig_iff]
        exact hon
      rw [allow, henabled, Bool.false_and]
    exact .inr (congrArg Prod.snd (Bridge.onSms_refused (B := bridge C D) rfl hgate))

/-- The right of an account of the file is that of its last record. -/
theorem ByRight.authorised {m : InboundSms} {trace : List Call}
    (h : ByRight conf (InFile users) m trace) : Authorised conf users m trace where
  switched := h.switched
  set us hus := by
    obtain ⟨a, ha, hadmin⟩ := h.set us hus
    obtain ⟨id, second, third, hlast, hright⟩ := ha.exists_lastRecord
    exact ⟨id, second, third, hlast, hright hadmin⟩
  get xs hxs := by
    obtain ⟨a, ha⟩ := h.get xs hxs
    obtain ⟨id, second, third, hlast, -⟩ := ha.exists_lastRecord
    exact ⟨id, second, third, hlast⟩

/-- **One event.** What it keeps, and what was allowed in it. -/
theorem Genuine.step (hC : C.Lawful) {s : StandaloneClient S E}
    (hs : Genuine C conf users (InFile users) s) (ev : Event E) :
    Genuine C conf users (InFile users) (step C D s ev).1 ∧
      ∀ p ∈ (StandaloneClient.step C D s ev).2, Authorised conf users p.1 p.2 := by
  cases ev with
  | sms m =>
    obtain ⟨⟨hkept, -⟩, hright⟩ := hs.onSms (D := D) hC m
    refine ⟨⟨hkept.config_eq, hkept.users_eq, hkept.opened.mono fun a ha => ha.elim id And.right⟩,
      List.forall_mem_singleton.2 hright.authorised⟩
  | timeout =>
    exact ⟨⟨hs.config_eq, hs.users_eq, hs.opened.sweep hC⟩, by simp [StandaloneClient.step]⟩
  | outside f =>
    exact ⟨⟨hs.config_eq, hs.users_eq, hs.opened⟩, by simp [StandaloneClient.step]⟩

/-- And a whole run. -/
theorem Genuine.run (hC : C.Lawful) {s : StandaloneClient S E}
    (hs : Genuine C conf users (InFile users) s) (evs : List (Event E)) :
    ∀ p ∈ (StandaloneClient.run C D s evs).2, Authorised conf users p.1 p.2 := by
  induction evs generalizing s with
  | nil => simp [StandaloneClient.run]
  | cons ev evs ih =>
    intro p hp
    obtain ⟨hkept, hallowed⟩ := hs.step (D := D) hC ev
    rcases List.mem_append.1 hp with hp | hp
    · exact hallowed p hp
    · exact ih hkept p hp

end

/-! ## A daemon that is written to -/

/-- A write before the login, the login, and the write again. -/
def written : List (Event (ℕ × List (List (Text × Text)))) :=
  [.sms ⟨"+1555".toList, "IOT GNMI SET /mtu 1500".toList, []⟩,
    .sms ⟨"+1555".toList, "IOT LOGIN alice secret".toList, []⟩, .timeout,
    .outside fun e => (e.1 + 60000000, e.2),
    .sms ⟨"+1555".toList, "IOT GNMI SET /mtu 1500".toList, []⟩]

end StandaloneClient

end ZeroTouch
