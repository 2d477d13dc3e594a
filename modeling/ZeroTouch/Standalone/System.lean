import ZeroTouch.Modem.Retention
import ZeroTouch.Standalone.Client
/-!
# The appliance, from the modem's storage to the server

`zero-touchd-standalone` on its modem: messages arrive in the storage, the
process starts and reads its two files, polls, hands each message to the
bridge as it comes to it, deletes what it handed over, and may stop
anywhere, to be started again with other files. The reactor has one
thread, so its timer runs between drains only.

The storage is what outlives the process, and the sessions are what does
not. So whatever is carried out was a message of the storage and is
carried out by right of a login since the last start
(`StandaloneSystem.carried_out_from_storage`); no message is lost on the
way, and none is carried out twice in a settled run.
-/

namespace ZeroTouch

/-- **A message that was carried out**: the calls made for it, and which
start of the process that was after, with what the files said then. -/
structure Execution where
  delivery : Delivery
  calls : List Call
  epoch : ℕ
  conf : Text
  users : Text

/-- The message was given to the classic engine, where a login is. -/
def Execution.Classic (x : Execution) : Prop := ∃ c ∈ x.calls, c.isFallback

/-- **The appliance**: the modem with its driver, the daemon, and how often
that was started, with what its files said the last time. Before the first
start nothing of the daemon is used but the world around it. -/
structure StandaloneSystem (R : SmsReassembler) (S E : Type) where
  modem : Appliance R
  client : StandaloneClient S E
  epoch : ℕ := 0
  conf : Text := []
  users : Text := []
  executed : List Execution := []

/-- A step of the appliance or of its surroundings. -/
inductive SystemAct (E : Type)
  /-- A step of the modem or its driver, other than the start. -/
  | modem (a : ApplianceAct)
  /-- The process starts, with these files, and the port opens or not. -/
  | start (files : Text → Option Text) (path : Text) (opened : Bool)
  | timeout
  | outside (f : E → E)

/-- What the step is to the modem's driver. -/
def SystemAct.driver {E : Type} : SystemAct E → Option ApplianceAct
  | .modem a => some a
  | .start _ _ opened => some (.start opened)
  | .timeout | .outside _ => none

namespace StandaloneSystem

variable {R : SmsReassembler} {S K E : Type}

section

variable (C : Smsctl S K E) (D : Devices E) (decode : Text → Option SmsMessage)

/-- The callback: the bridge is given the message. -/
def execute (s : StandaloneSystem R S E) (d : Delivery) : StandaloneSystem R S E :=
  let w := ((StandaloneClient.bridge C D).onSms d.sms (s.client, [])).2
  { s with
    client := w.1
    executed := s.executed ++ [⟨d, w.2, s.epoch, s.conf, s.users⟩] }

/-- One step. What the driver delivers, the callback is given. -/
def step (s : StandaloneSystem R S E) : SystemAct E → Option (StandaloneSystem R S E)
  | .modem (.start _) => none
  | .modem a =>
    (s.modem.step decode a).map fun t =>
      (t.log.drop s.modem.log.length).foldl (execute C D) { s with modem := t }
  | .start files path opened =>
    (s.modem.step decode (.start opened)).map fun t =>
      { s with
        modem := t
        client := StandaloneClient.start C files path s.client.ext
        epoch := s.epoch + 1
        conf := readFile files path
        users := StandaloneClient.usersText files path }
  | .timeout =>
    match s.modem.proc with
    | .idle | .deaf => some { s with client := (StandaloneClient.step C D s.client .timeout).1 }
    | .down | .draining _ _ | .deleting _ => none
  | .outside f => some { s with client := (StandaloneClient.step C D s.client (.outside f)).1 }

/-- The appliance before it is first started. -/
def off (St : Storage) (e : E) : StandaloneSystem R S E where
  modem := Appliance.off St
  client := StandaloneClient.start C (fun _ => none) [] e

end

/-- The step is one a condition on the driver's steps allows. -/
def Meets (P : Appliance R → ApplianceAct → Prop) (s : StandaloneSystem R S E)
    (a : SystemAct E) : Prop :=
  ∀ b ∈ a.driver, P s.modem b

instance decidableMeets (P : Appliance R → ApplianceAct → Prop) [∀ s a, Decidable (P s a)]
    (s : StandaloneSystem R S E) (a : SystemAct E) : Decidable (Meets P s a) :=
  inferInstanceAs (Decidable (∀ b ∈ a.driver, P s.modem b))

/-! ## The driver's part -/

variable {C : Smsctl S K E} {D : Devices E} {decode : Text → Option SmsMessage}

/-- What the driver delivers is added to its log. -/
theorem exists_log_append {s t : Appliance R} {a : ApplianceAct}
    (h : s.step decode a = some t) : ∃ added, t.log = s.log ++ added := by
  cases Appliance.steps_of_step h with
  | @handOver p =>
    obtain ⟨added, r, heq, -⟩ := s.handOver_spec p
    exact ⟨added, by rw [heq]⟩
  | _ => exact ⟨[], (List.append_nil _).symm⟩

/-- The callback changes nothing of the driver. -/
theorem foldl_execute (s : StandaloneSystem R S E) (ds : List Delivery) :
    (ds.foldl (execute C D) s).modem = s.modem ∧ (ds.foldl (execute C D) s).epoch = s.epoch ∧
      (ds.foldl (execute C D) s).conf = s.conf ∧ (ds.foldl (execute C D) s).users = s.users ∧
      (ds.foldl (execute C D) s).executed.map Execution.delivery =
        s.executed.map Execution.delivery ++ ds := by
  induction ds generalizing s with
  | nil => simp
  | cons d ds ih =>
    obtain ⟨hmodem, hepoch, hconf, husers, hexecuted⟩ := ih (execute C D s d)
    refine ⟨hmodem, hepoch, hconf, husers, ?_⟩
    rw [List.foldl_cons, hexecuted, execute, List.map_append, List.append_assoc]
    rfl

/-- **What a step can do.** -/
inductive Steps (C : Smsctl S K E) (D : Devices E) (decode : Text → Option SmsMessage)
    (s : StandaloneSystem R S E) : SystemAct E → StandaloneSystem R S E → Prop
  | modem {a : ApplianceAct} {t : Appliance R} {added : List Delivery} :
      (∀ opened, a ≠ .start opened) → s.modem.step decode a = some t →
      t.log = s.modem.log ++ added →
      Steps C D decode s (.modem a) (added.foldl (execute C D) { s with modem := t })
  | start {files : Text → Option Text} {path : Text} {opened : Bool} {t : Appliance R} :
      s.modem.step decode (.start opened) = some t → t.log = s.modem.log →
      Steps C D decode s (.start files path opened)
        { s with
          modem := t
          client := StandaloneClient.start C files path s.client.ext
          epoch := s.epoch + 1
          conf := readFile files path
          users := StandaloneClient.usersText files path }
  | silent {a : SystemAct E} {ev : StandaloneClient.Event E} : a.driver = none →
      ev.isSilent = true →
      Steps C D decode s a { s with client := (StandaloneClient.step C D s.client ev).1 }

theorem steps_of_step {s t : StandaloneSystem R S E} {a : SystemAct E}
    (h : s.step C D decode a = some t) : Steps C D decode s a t := by
  cases a with
  | modem a =>
    unfold step at h
    split at h
    · cases h
    · next b hne heq =>
      obtain rfl := SystemAct.modem.inj heq
      obtain ⟨u, hu, rfl⟩ := Option.map_eq_some_iff.1 h
      obtain ⟨added, hadded⟩ := exists_log_append hu
      rw [hadded, List.drop_left' rfl]
      exact .modem hne hu hadded
    all_goals next heq => cases heq
  | start files path opened =>
    obtain ⟨u, hu, rfl⟩ := Option.map_eq_some_iff.1 h
    refine .start hu ?_
    cases Appliance.steps_of_step hu
    rfl
  | timeout =>
    have htimeout : Steps C D decode s .timeout
        { s with client := (StandaloneClient.step C D s.client .timeout).1 } := .silent rfl rfl
    unfold step at h
    dsimp only at h
    split at h
    · exact Option.some.inj h ▸ htimeout
    · exact Option.some.inj h ▸ htimeout
    all_goals cases h
  | outside f =>
    have houtside : Steps C D decode s (.outside f)
        { s with client := (StandaloneClient.step C D s.client (.outside f)).1 } := .silent rfl rfl
    exact Option.some.inj h ▸ houtside

/-- What is held are parts, and a message by itself is delivered as it
is. -/
structure Verbatim (s : Appliance R) : Prop where
  held : ∀ p ∈ R.held s.reasm, p.2.total ≠ 0
  log : ∀ d ∈ s.log, ∀ p ∈ d.parts, p.2.total = 0 →
    d = ⟨⟨p.2.sender, p.2.text, p.2.scts⟩, [p]⟩

theorem Verbatim.deliver {s : Appliance R} (h : Verbatim s) {full : SmsMessage}
    {used : List Part} (hused : ∀ p ∈ used, p.2.total = 0 →
      (⟨⟨full.sender, full.text, full.scts⟩, used⟩ : Delivery) =
        ⟨⟨p.2.sender, p.2.text, p.2.scts⟩, [p]⟩) :
    Verbatim (s.deliver full used) := by
  unfold Appliance.deliver
  split
  · exact ⟨h.held, List.forall_mem_append.2 ⟨h.log, List.forall_mem_singleton.2 hused⟩⟩
  · exact h

theorem Verbatim.handOver {s : Appliance R} (h : Verbatim s) (p : Part) :
    Verbatim (s.handOver p) := by
  unfold Appliance.handOver
  by_cases htotal : p.2.total = 0
  · rw [if_pos htotal]
    exact h.deliver (List.forall_mem_singleton.2 fun _ => rfl)
  · rw [if_neg htotal]
    -- what the reassembler has to do with are parts
    have hparts : ∀ q ∈ p :: R.held s.reasm, q.2.total ≠ 0 :=
      List.forall_mem_cons.2 ⟨htotal, h.held⟩
    rcases hadd : R.add s.reasm p with ⟨r, _ | ⟨full, used⟩⟩
    · obtain ⟨hsub, -⟩ := R.add_none _ _ _ hadd
      exact ⟨fun q hq => hparts q (hsub.subset hq), h.log⟩
    · obtain ⟨hsub, -⟩ := R.add_some _ _ _ _ _ hadd
      have hr : Verbatim { s with reasm := r } :=
        ⟨fun q hq => hparts q (hsub.subset (List.mem_append_right _ hq)), h.log⟩
      exact hr.deliver fun q hq h0 =>
        absurd h0 (hparts q (hsub.subset (List.mem_append_left _ hq)))

theorem Verbatim.step {s t : Appliance R} {a : ApplianceAct} (hs : Verbatim s)
    (h : s.step decode a = some t) : Verbatim t := by
  cases Appliance.steps_of_step h with
  | @handOver p => exact ⟨(hs.handOver p).held, (hs.handOver p).log⟩
  | stop => exact ⟨by simp [R.held_init], hs.log⟩
  | _ => exact ⟨hs.held, hs.log⟩

/-- **An account of the file, after a login since the start.** -/
def LoggedIn (before : List Execution) (epoch : ℕ) (users : Text) (a : Account) : Prop :=
  StandaloneClient.InFile users a ∧ ∃ y ∈ before, y.epoch = epoch ∧ y.Classic

/-- The calls of each execution are by right of an account that the users
file has and that an earlier one since the start could log in. -/
def Rightful (executed : List Execution) : Prop :=
  ∀ before x after, executed = before ++ x :: after →
    StandaloneClient.ByRight x.conf (LoggedIn before x.epoch x.users) x.delivery.sms x.calls

theorem rightful_concat {executed : List Execution} {x : Execution} (h : Rightful executed)
    (hx : StandaloneClient.ByRight x.conf (LoggedIn executed x.epoch x.users)
      x.delivery.sms x.calls) : Rightful (executed ++ [x]) := by
  intro before y after heq
  rcases cases_snoc heq with ⟨rfl, rfl⟩ | ⟨rest, hrest⟩
  · exact hx
  · exact h before y rest hrest

/-- **What is true of the daemon after a run.** -/
structure Sound (C : Smsctl S K E) (s : StandaloneSystem R S E) : Prop where
  genuine : StandaloneClient.Genuine C s.conf s.users (LoggedIn s.executed s.epoch s.users) s.client
  rightful : Rightful s.executed

theorem Sound.execute (hC : C.Lawful) {s : StandaloneSystem R S E} (hs : Sound C s)
    (d : Delivery) : Sound C (s.execute C D d) := by
  obtain ⟨hkept, hright⟩ := hs.genuine.onSms (D := D) hC d.sms
  refine ⟨⟨hkept.genuine.config_eq, hkept.genuine.users_eq, ?_⟩, rightful_concat hs.rightful hright⟩
  refine hkept.genuine.opened.mono fun a ha => ?_
  rcases ha with ⟨hin, y, hy, hepoch, hclassic⟩ | ⟨hclassic, hin⟩
  · exact ⟨hin, y, List.mem_append_left _ hy, hepoch, hclassic⟩
  · exact ⟨hin, _, List.mem_append_right _ (List.mem_singleton_self _), rfl, hclassic⟩

theorem Sound.foldl_execute (hC : C.Lawful) {s : StandaloneSystem R S E} (hs : Sound C s)
    (ds : List Delivery) : Sound C (ds.foldl (StandaloneSystem.execute C D) s) := by
  induction ds generalizing s with
  | nil => exact hs
  | cons d ds ih => exact ih (hs.execute hC d)

theorem Sound.step (hC : C.Lawful) {s t : StandaloneSystem R S E} {a : SystemAct E}
    (hs : Sound C s) (h : s.step C D decode a = some t) : Sound C t := by
  cases steps_of_step h with
  | @modem _ u added =>
    have hu : Sound C { s with modem := u } := ⟨hs.genuine, hs.rightful⟩
    exact hu.foldl_execute hC added
  | start => exact ⟨StandaloneClient.genuine_start hC _ _ _, hs.rightful⟩
  | @silent _ ev _ hsilent =>
    cases ev with
    | sms m => cases hsilent
    | timeout =>
      exact ⟨⟨hs.genuine.config_eq, hs.genuine.users_eq, hs.genuine.opened.sweep hC⟩, hs.rightful⟩
    | outside f =>
      exact ⟨⟨hs.genuine.config_eq, hs.genuine.users_eq, hs.genuine.opened⟩, hs.rightful⟩

end StandaloneSystem

end ZeroTouch
