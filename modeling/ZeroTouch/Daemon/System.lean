import ZeroTouch.Daemon.Client
import ZeroTouch.Ds.SmsTransport
/-!
# The daemon on its data store, from the slot to the server

`zero-touchd` with its transport: cellular-client writes the slot and
announces it, the listener thread raises the flag, and the one thread of
the reactor drains the slot, hands the message to the bridge, takes up
changes of the configuration and runs the timer, one after another.

A message is known by its number in the slot. Every one that is carried
out was published, in that order and once each, by right of a login whose
message was carried out before it (`DsSystem.carried_out_as_published`).
-/

namespace ZeroTouch

/-- **A message that was carried out**: its number in the slot, the calls
made for it, what the reads of `lookup_account` gave meanwhile, and whether
the switch was on. -/
structure DsExecution (V : Type) where
  number : ℕ
  sms : InboundSms
  calls : List Call
  got : AuthKey → Option V
  enabled : Bool

/-- The message was given to the classic engine, where a login is. -/
def DsExecution.Classic {V : Type} (x : DsExecution V) : Prop := ∃ c ∈ x.calls, c.isFallback

/-- **The daemon and its transport.** -/
structure DsSystem (S V E : Type) where
  transport : DsSmsTransport
  daemon : ZeroTouchd S E
  executed : List (DsExecution V) := []

/-- A step of the daemon, its transport or cellular-client. -/
inductive DsSystemAct (V E : Type)
  /-- A step of the transport, other than the end of a drain. -/
  | transport (a : DsAct)
  /-- The end of a drain, with what the reads of `lookup_account` give and
  whether the store takes what is published. -/
  | deliver (got : AuthKey → Option V) (taken : Bool)
  | configure (got : ConfigKey → Option V) (taken : Bool)
  | timeout (taken : Bool)
  | outside (f : E → E)

/-- What the step is to the transport. -/
def DsSystemAct.part {V E : Type} : DsSystemAct V E → Option DsAct
  | .transport a => some a
  | .deliver _ _ => some .deliver
  | .configure _ _ | .timeout _ | .outside _ => none

namespace DsSystem

variable {S K V E : Type}

section

variable (C : Smsctl S K E) (D : Devices E) (conv : DsConversions V)
variable (parse : Text → Option JsonValue)

/-- The callback: the bridge is given the message. -/
def execute (got : AuthKey → Option V) (taken : Bool) (s : DsSystem S V E) (e : ℕ × InboundSms) :
    DsSystem S V E :=
  let out := ZeroTouchd.onSms C D conv parse s.daemon e.2 got taken
  { s with
    daemon := out.1
    executed := s.executed ++ [⟨e.1, e.2, out.2, got, s.daemon.applied.enabled⟩] }

/-- An event the reactor wakes up for, between drains. -/
def wake (ev : ZeroTouchd.Event V E) (s : DsSystem S V E) : Option (DsSystem S V E) :=
  match s.transport.pc with
  | .idle => some { s with daemon := ZeroTouchd.step C D conv parse s.daemon ev }
  | .fresh | .baselined | .draining | .read _ _ => none

/-- One step. What the transport delivers, the callback is given. -/
def step (s : DsSystem S V E) : DsSystemAct V E → Option (DsSystem S V E)
  | .transport .deliver => none
  | .transport a => (s.transport.step a).map fun t => { s with transport := t }
  | .deliver got taken =>
    (s.transport.step .deliver).map fun t =>
      (t.log.drop s.transport.log.length).foldl (execute C D conv parse got taken)
        { s with transport := t }
  | .configure got taken => wake C D conv parse (.configure got taken) s
  | .timeout taken => wake C D conv parse (.timeout taken) s
  | .outside f =>
    some { s with daemon := ZeroTouchd.step C D conv parse s.daemon (.outside f) }

/-- The daemon once its configuration is read for the first time, before
it starts the transport. -/
def init (initial : InboundSms) (first : ConfigKey → Option V) (taken : Bool) (e : E) :
    DsSystem S V E where
  transport := DsSmsTransport.fresh initial
  daemon := ZeroTouchd.start C conv first taken e

end

/-- Every read of the transport succeeds. -/
def ReadsOk (s : DsSystem S V E) (a : DsSystemAct V E) : Prop :=
  ∀ b ∈ a.part, DsSmsTransport.ReadsOk s.transport b

instance decidableReadsOk (s : DsSystem S V E) (a : DsSystemAct V E) : Decidable (ReadsOk s a) :=
  inferInstanceAs (Decidable (∀ b ∈ a.part, DsSmsTransport.ReadsOk s.transport b))

variable {C : Smsctl S K E} {D : Devices E} {conv : DsConversions V}
variable {parse : Text → Option JsonValue}

/-! ## What a step can do -/

/-- The end of a drain adds to the log. -/
theorem exists_log_append {s t : DsSmsTransport} (h : s.step .deliver = some t) :
    ∃ added, t.log = s.log ++ added := by
  cases DsSmsTransport.steps_of_step h with
  | @deliver k sms =>
    rcases s.drainInbound_cases k sms with ⟨-, heq⟩ | ⟨-, heq⟩ | ⟨-, -, heq⟩
    · exact ⟨[], by rw [heq, List.append_nil]⟩
    · exact ⟨[], by rw [heq, List.append_nil]⟩
    · exact ⟨_, by rw [heq]⟩

/-- No other step does. -/
theorem log_eq {s t : DsSmsTransport} {a : DsAct} (ha : a ≠ .deliver) (h : s.step a = some t) :
    t.log = s.log := by
  cases DsSmsTransport.steps_of_step h with
  | deliver => exact absurd rfl ha
  | _ => rfl

/-- **What a step can do.** -/
inductive Steps (C : Smsctl S K E) (D : Devices E) (conv : DsConversions V)
    (parse : Text → Option JsonValue) (s : DsSystem S V E) :
    DsSystemAct V E → DsSystem S V E → Prop
  | transport {a : DsAct} {t : DsSmsTransport} : s.transport.step a = some t →
      t.log = s.transport.log → Steps C D conv parse s (.transport a) { s with transport := t }
  | deliver {got : AuthKey → Option V} {taken : Bool} {t : DsSmsTransport}
      {added : List (ℕ × InboundSms)} : s.transport.step .deliver = some t →
      t.log = s.transport.log ++ added →
      Steps C D conv parse s (.deliver got taken)
        (added.foldl (execute C D conv parse got taken) { s with transport := t })
  | daemon {a : DsSystemAct V E} {ev : ZeroTouchd.Event V E} : a.part = none →
      (∀ m got taken, ev ≠ .sms m got taken) →
      Steps C D conv parse s a { s with daemon := ZeroTouchd.step C D conv parse s.daemon ev }

theorem steps_of_step {s t : DsSystem S V E} {a : DsSystemAct V E}
    (h : s.step C D conv parse a = some t) : Steps C D conv parse s a t := by
  have hwake : ∀ {ev : ZeroTouchd.Event V E}, wake C D conv parse ev s = some t →
      t = { s with daemon := ZeroTouchd.step C D conv parse s.daemon ev } := by
    intro ev hev
    unfold wake at hev
    split at hev
    · exact (Option.some.inj hev).symm
    all_goals cases hev
  cases a with
  | transport a =>
    by_cases ha : a = .deliver
    · subst ha
      cases h
    · have hmap : (s.transport.step a).map (fun u => { s with transport := u }) = some t := by
        cases a with
        | deliver => exact absurd rfl ha
        | _ => exact h
      obtain ⟨u, hu, rfl⟩ := Option.map_eq_some_iff.1 hmap
      exact .transport hu (log_eq ha hu)
  | deliver got taken =>
    obtain ⟨u, hu, rfl⟩ := Option.map_eq_some_iff.1 h
    obtain ⟨added, hadded⟩ := exists_log_append hu
    rw [hadded, List.drop_left' rfl]
    exact .deliver hu hadded
  | configure got taken =>
    rw [hwake h]
    exact .daemon rfl fun _ _ _ heq => by cases heq
  | timeout taken =>
    rw [hwake h]
    exact .daemon rfl fun _ _ _ heq => by cases heq
  | outside f =>
    obtain rfl := Option.some.inj h
    exact .daemon rfl fun _ _ _ heq => by cases heq

/-- The callback changes nothing of the transport. -/
theorem foldl_execute (got : AuthKey → Option V) (taken : Bool) (s : DsSystem S V E)
    (es : List (ℕ × InboundSms)) :
    (es.foldl (execute C D conv parse got taken) s).transport = s.transport ∧
      (es.foldl (execute C D conv parse got taken) s).executed.map (fun x => (x.number, x.sms)) =
        s.executed.map (fun x => (x.number, x.sms)) ++ es := by
  induction es generalizing s with
  | nil => simp
  | cons e es ih =>
    obtain ⟨htransport, hexecuted⟩ := ih (execute C D conv parse got taken s e)
    refine ⟨htransport, ?_⟩
    rw [List.foldl_cons, hexecuted, execute, List.map_append, List.append_assoc]
    rfl

/-- What the reads gave, message by message, for those that could log
in. -/
def logins (executed : List (DsExecution V)) : List (AuthKey → Option V) :=
  (executed.filter fun x => x.calls.any Call.isFallback).map DsExecution.got

theorem mem_logins {executed : List (DsExecution V)} {got : AuthKey → Option V} :
    got ∈ logins executed ↔ ∃ x ∈ executed, x.Classic ∧ x.got = got := by
  simp only [logins, List.mem_map, List.mem_filter, List.any_eq_true, DsExecution.Classic,
    and_assoc]

/-- **The message had the rights it used**: a write needs an earlier login
whose reads made an account an administrator's, and a read one whose reads
found an account; with the switch off the message was dropped. -/
structure Entitled (conv : DsConversions V) (parse : Text → Option JsonValue)
    (before : List (DsExecution V)) (x : DsExecution V) : Prop where
  set : ∀ us, .set us ∈ x.calls →
    ∃ y ∈ before, y.Classic ∧ ∃ id, GrantsAdmin conv parse y.got id
  get : ∀ xs, .get xs ∈ x.calls →
    ∃ y ∈ before, y.Classic ∧ ∃ id a, lookupAccount conv parse y.got id = some a
  dropped : x.enabled = false → x.calls = [.allow x.sms.sender false]

/-- **What is true of the daemon after a run.** -/
structure Sound (C : Smsctl S K E) (conv : DsConversions V) (parse : Text → Option JsonValue)
    (s : DsSystem S V E) : Prop where
  opened : s.daemon.toEngine.Opened C (ZeroTouchd.LookedUp conv parse (logins s.executed))
  entitled : ∀ before x after, s.executed = before ++ x :: after → Entitled conv parse before x

theorem Sound.execute (hC : C.Lawful) {s : DsSystem S V E} (hs : Sound C conv parse s)
    (got : AuthKey → Option V) (taken : Bool) (e : ℕ × InboundSms) :
    Sound C conv parse (s.execute C D conv parse got taken e) := by
  have hkept : ZeroTouchd.Kept C conv parse (logins s.executed) got s.daemon
      (ZeroTouchd.onSms C D conv parse s.daemon e.2 got taken) :=
    ZeroTouchd.onSms_kept hC e.2 taken hs.opened
  have hentitled : ZeroTouchd.Entitled conv parse (logins s.executed) s.daemon e.2
      (ZeroTouchd.onSms C D conv parse s.daemon e.2 got taken) :=
    ZeroTouchd.onSms_entitled hC e.2 taken hs.opened
  constructor
  · by_cases hclassic :
        ∃ c ∈ (ZeroTouchd.onSms C D conv parse s.daemon e.2 got taken).2, c.isFallback
    · refine hkept.opened.mono fun a ha => ha.mono fun g hg => mem_logins.2 ?_
      rcases List.mem_append.1 hg with hg | hg
      · obtain ⟨y, hy, hlogin⟩ := mem_logins.1 hg
        exact ⟨y, List.mem_append_left _ hy, hlogin⟩
      · rw [List.mem_singleton.1 hg]
        exact ⟨_, List.mem_append_right _ (List.mem_singleton_self _), hclassic, rfl⟩
    · -- nobody could log in
      refine (hkept.opened_before.resolve_left hclassic).mono fun a ha => ha.mono fun g hg => ?_
      obtain ⟨y, hy, hlogin⟩ := mem_logins.1 hg
      exact mem_logins.2 ⟨y, List.mem_append_left _ hy, hlogin⟩
  · intro before x after heq
    rcases cases_snoc heq with ⟨rfl, rfl⟩ | ⟨rest, hrest⟩
    · refine ⟨fun us hus => ?_, fun xs hxs => ?_, fun hoff => ?_⟩
      · obtain ⟨g, hg, hadmin⟩ := hentitled.set us hus
        obtain ⟨y, hy, hlogin, rfl⟩ := mem_logins.1 hg
        exact ⟨y, hy, hlogin, hadmin⟩
      · obtain ⟨g, hg, hfound⟩ := hentitled.get xs hxs
        obtain ⟨y, hy, hlogin, rfl⟩ := mem_logins.1 hg
        exact ⟨y, hy, hlogin, hfound⟩
      · exact congrArg Prod.snd (hentitled.dropped hoff)
    · exact hs.entitled before x rest hrest

theorem Sound.foldl_execute (hC : C.Lawful) {s : DsSystem S V E} (hs : Sound C conv parse s)
    (got : AuthKey → Option V) (taken : Bool) (es : List (ℕ × InboundSms)) :
    Sound C conv parse (es.foldl (DsSystem.execute C D conv parse got taken) s) := by
  induction es generalizing s with
  | nil => exact hs
  | cons e es ih => exact ih (hs.execute hC got taken e)

theorem Sound.step (hC : C.Lawful) {s t : DsSystem S V E} {a : DsSystemAct V E}
    (hs : Sound C conv parse s) (h : s.step C D conv parse a = some t) : Sound C conv parse t := by
  cases steps_of_step h with
  | transport => exact ⟨hs.opened, hs.entitled⟩
  | @deliver got taken u added =>
    have hu : Sound C conv parse { s with transport := u } := ⟨hs.opened, hs.entitled⟩
    exact hu.foldl_execute hC got taken added
  | daemon _ hev => exact ⟨ZeroTouchd.opened_step hC hs.opened hev, hs.entitled⟩

theorem sound_init (hC : C.Lawful) (initial : InboundSms) (first : ConfigKey → Option V)
    (taken : Bool) (e : E) : Sound C conv parse (init C conv initial first taken e) where
  opened := (ZeroTouchd.sound_start hC first taken e).opened
  entitled before x after h := by simp [init] at h

/-- What the first load reads. -/
def switchedOn (k : ConfigKey) : Option DsVariant := if k = .enabled then some (.bool true) else none

end DsSystem

end ZeroTouch
