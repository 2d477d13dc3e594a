import ZeroTouch.Modem.SendSms
import ZeroTouch.Standalone.Config
/-!
# What the modem carries out

A modem takes command lines, each up to a carriage return, until one of
them is `AT+CMGS`: behind its prompt everything is message text, up to a
Ctrl-Z, which submits it, or an escape, which does not. A command written
there is not carried out.

`send_sms` and `configure` begin with an escape, and no other call does.
So what a run leaves is decided by its last send alone, and a send decides
it by whether the payload went out exactly where the modem took the
command: if not, either every later command is message text until the next
send, or the payload is in front of the next one. `carried_out_iff` says
which commands of a run are carried out, and that every send's own are.
-/

namespace ZeroTouch

/-! ## The modem -/

/-- Where the modem is: in a command line, or in the text of a message. -/
inductive PromptState
  | command (line : Text)
  | text (msg : Text)
  deriving DecidableEq, Repr

/-- The modem, with the command lines it has carried out and the messages
it has submitted. -/
structure PromptModem where
  state : PromptState
  carried : List Text := []
  submitted : List Text := []
  deriving DecidableEq, Repr

/-- The line is `AT+CMGS` with a length. -/
def isCmgs (line : Text) : Bool :=
  line.startsWith "AT+CMGS=".toList && (line.drop 8).all Char.isDigit

namespace PromptModem

/-- One byte. `accepted` is whether the modem gives a prompt where it is
asked for one. An escape means nothing to it in a command line. -/
def byte (accepted : Bool) (m : PromptModem) (c : Char) : PromptModem :=
  match m.state with
  | .command line =>
    if c = '\r' then
      { m with
        state := if isCmgs line && accepted then .text [] else .command []
        carried := m.carried ++ [line] }
    else if c = '\x1b' then m
    else { m with state := .command (line ++ [c]) }
  | .text msg =>
    if c = '\x1b' then { m with state := .command [] }
    else if c = '\x1a' then { m with state := .command [], submitted := m.submitted ++ [msg] }
    else { m with state := .text (msg ++ [c]) }

/-- The bytes one by one. -/
def feed (accepted : Bool) (m : PromptModem) (bytes : Text) : PromptModem :=
  bytes.foldl (byte accepted) m

end PromptModem

/-! ## What the daemon writes -/

/-- The bytes of a write. -/
def PortWrite.bytes : PortWrite → Text
  | .escape => ['\x1b']
  | .command cmd => cmd ++ ['\r']
  | .payload pdu => pdu ++ ['\x1a']

/-- The writes of `resolve_vendor`. -/
def resolveVendor (t : ModemType) : List PortWrite :=
  if t ≠ .auto then [] else [.command "AT+GMI".toList, .command "AT+CGMM".toList]

/-- The writes of `configure`. -/
def configure : List PortWrite :=
  [.escape, .command "ATE0".toList, .command "AT+CMEE=1".toList, .command "AT+CMGF=0".toList,
    .command "AT+CNMI=2,1,0,0,0".toList]

/-- **A call of the daemon's on the port**: a command of `at`, or a send,
which the modem gives a prompt or not. -/
inductive PortCall
  | command (cmd : Text)
  | send (c : SendCall) (accepted : Bool)

namespace PortCall

/-- What the call writes. -/
def writes : PortCall → List PortWrite
  | .command cmd => [.command cmd]
  | .send c _ => (sendSms c).writes

/-- Whether the modem gives a prompt where the call asks for one. -/
def accepted : PortCall → Bool
  | .command _ => true
  | .send _ accepted => accepted

/-- The call is a send of a message that could be encoded. -/
def attempts : PortCall → Bool
  | .command _ => false
  | .send c _ => c.encoded.isSome

end PortCall

namespace PromptModem

/-- The modem takes what is written. -/
def take (accepted : Bool) (m : PromptModem) (ws : List PortWrite) : PromptModem :=
  ws.foldl (fun m w => m.feed accepted w.bytes) m

/-- A call, over a port that takes what it is given. -/
def call (m : PromptModem) (c : PortCall) : PromptModem := m.take c.accepted c.writes

/-- `AtModem::start` up to the first poll, and the calls after it. -/
def run (t : ModemType) (m : PromptModem) (calls : List PortCall) : PromptModem :=
  calls.foldl call (m.take true (resolveVendor t ++ configure))

end PromptModem

/-! ## Which commands get through -/

/-- No byte of it is a control of the modem's. -/
def Plain (t : Text) : Prop := ∀ c ∈ t, c ≠ '\r' ∧ c ≠ '\x1b' ∧ c ≠ '\x1a'

instance decidablePlain (t : Text) : Decidable (Plain t) :=
  List.decidableBAll (fun c => c ≠ '\r' ∧ c ≠ '\x1b' ∧ c ≠ '\x1a') t

/-- **A call as the daemon makes them**: a plain command that asks for no
prompt, or a send of a plain payload. -/
def PortCall.Lawful : PortCall → Prop
  | .command cmd => Plain cmd ∧ isCmgs cmd = false
  | .send c _ => ∀ e ∈ c.encoded, Plain e.1

/-- The payload is written. -/
def SendCall.PaysOut (c : SendCall) : Prop := ∃ pdu, .payload pdu ∈ (sendSms c).writes

/-- `c` is the last send of the run, and `after` what came after it. -/
def LastSend (calls : List PortCall) (c : SendCall) (accepted : Bool) (after : List PortCall) :
    Prop :=
  ∃ before, calls = before ++ .send c accepted :: after ∧ c.encoded.isSome = true ∧
    ∀ x ∈ after, x.attempts = false

/-- **The way is clear** for a command: the last send wrote its payload
exactly where the modem gave a prompt, or a command has since taken the
payload off that it did not want. -/
def Clear (calls : List PortCall) : Prop :=
  ∀ c accepted after, LastSend calls c accepted after →
    (accepted = true ↔ c.PaysOut) ∨ accepted = false ∧ ∃ cmd, .command cmd ∈ after

/-! ## One write -/

/-- A line that asks for a prompt has no character but those of
`AT+CMGS=` and digits. -/
theorem isCmgs_eq_false {line : Text} {c : Char} (hc : c ∈ line) (hcmgs : c ∉ "AT+CMGS=".toList)
    (hdigit : c.isDigit = false) : isCmgs line = false := by
  rw [← Bool.not_eq_true, isCmgs, Bool.and_eq_true, Text.startsWith, List.isPrefixOf_iff_prefix,
    List.all_eq_true]
  rintro ⟨⟨rest, rfl⟩, hall⟩
  rcases List.mem_append.1 hc with hc | hc
  · exact hcmgs hc
  · rw [hall c hc] at hdigit
    cases hdigit

namespace PromptModem

variable {m : PromptModem} {b : Bool} {line msg cmd pdu : Text}

theorem feed_append (m : PromptModem) (b : Bool) (s t : Text) :
    m.feed b (s ++ t) = (m.feed b s).feed b t :=
  List.foldl_append ..

/-- Plain bytes in a command line are collected. -/
theorem feed_of_command (hm : m.state = .command line) {t : Text} (ht : Plain t) :
    m.feed b t = { m with state := .command (line ++ t) } := by
  induction t generalizing m line with
  | nil =>
    rw [List.append_nil, ← hm]
    rfl
  | cons c t ih =>
    obtain ⟨hcr, hesc, -⟩ := ht c (List.mem_cons_self ..)
    have hstep : m.byte b c = { m with state := .command (line ++ [c]) } := by
      simp only [byte, hm, if_neg hcr, if_neg hesc]
    have hfeed : m.feed b (c :: t) = (m.byte b c).feed b t := rfl
    rw [hfeed, hstep, ih rfl fun d hd => ht d (List.mem_cons_of_mem c hd), List.append_assoc,
      List.singleton_append]

/-- And so they are in a message, where a carriage return is one too. -/
theorem feed_of_text (hm : m.state = .text msg) {t : Text}
    (ht : ∀ c ∈ t, c ≠ '\x1b' ∧ c ≠ '\x1a') :
    m.feed b t = { m with state := .text (msg ++ t) } := by
  induction t generalizing m msg with
  | nil =>
    rw [List.append_nil, ← hm]
    rfl
  | cons c t ih =>
    obtain ⟨hesc, hsub⟩ := ht c (List.mem_cons_self ..)
    have hstep : m.byte b c = { m with state := .text (msg ++ [c]) } := by
      simp only [byte, hm, if_neg hesc, if_neg hsub]
    have hfeed : m.feed b (c :: t) = (m.byte b c).feed b t := rfl
    rw [hfeed, hstep, ih rfl fun d hd => ht d (List.mem_cons_of_mem c hd), List.append_assoc,
      List.singleton_append]

/-- **A command in a command line** is carried out, with what was in front
of it. -/
theorem command_of_command (hm : m.state = .command line) (hcmd : Plain cmd) :
    m.feed b (PortWrite.command cmd).bytes =
      { m with
        state := if isCmgs (line ++ cmd) && b then .text [] else .command []
        carried := m.carried ++ [line ++ cmd] } := by
  rw [PortWrite.bytes, feed_append, feed_of_command hm hcmd]
  rfl

/-- **A command in a message** is more of the message. -/
theorem command_of_text (hm : m.state = .text msg) (hcmd : Plain cmd) :
    m.feed b (PortWrite.command cmd).bytes =
      { m with state := .text (msg ++ (cmd ++ ['\r'])) } := by
  refine feed_of_text hm fun c hc => ?_
  rcases List.mem_append.1 hc with hc | hc
  · exact (hcmd c hc).2
  · rw [List.mem_singleton.1 hc]
    decide

theorem escape_of_command (hm : m.state = .command line) :
    m.feed b PortWrite.escape.bytes = m := by
  simp [feed, PortWrite.bytes, byte, hm]

theorem escape_of_text (hm : m.state = .text msg) :
    m.feed b PortWrite.escape.bytes = { m with state := .command [] } := by
  simp [feed, PortWrite.bytes, byte, hm]

/-- A payload in a command line is in front of the next command. -/
theorem payload_of_command (hm : m.state = .command line) (hpdu : Plain pdu) :
    m.feed b (PortWrite.payload pdu).bytes =
      { m with state := .command (line ++ (pdu ++ ['\x1a'])) } := by
  rw [PortWrite.bytes, feed_append, feed_of_command hm hpdu, ← List.append_assoc]
  rfl

theorem payload_of_text (hm : m.state = .text msg) (hpdu : Plain pdu) :
    m.feed b (PortWrite.payload pdu).bytes =
      { m with state := .command [], submitted := m.submitted ++ [msg ++ pdu] } := by
  rw [PortWrite.bytes, feed_append, feed_of_text hm fun c hc => (hpdu c hc).2]
  rfl

/-- An escape leaves a command line, whatever it found. -/
theorem exists_escape (m : PromptModem) (b : Bool) :
    ∃ line, m.feed b PortWrite.escape.bytes = { m with state := .command line } := by
  cases hm : m.state with
  | command line => exact ⟨line, by rw [escape_of_command hm, ← hm]⟩
  | text msg => exact ⟨[], escape_of_text hm⟩

theorem ofInt_natCast (n : ℕ) : Text.ofInt n = Nat.toDigits 10 n := String.toList_ofList

theorem isDigit_of_mem_ofInt {n : ℕ} {c : Char} (h : c ∈ Text.ofInt n) : c.isDigit = true := by
  rw [ofInt_natCast] at h
  exact Nat.isDigit_of_mem_toDigits (by omega) le_rfl h

theorem plain_cmgsCommand (n : ℕ) : Plain (cmgsCommand n) := by
  have hname : Plain "AT+CMGS=".toList := by decide +kernel
  intro c hc
  rcases List.mem_append.1 hc with hc | hc
  · exact hname c hc
  · have hdigit := isDigit_of_mem_ofInt hc
    refine ⟨?_, ?_, ?_⟩ <;>
    · rintro rfl
      exact absurd hdigit (by decide)

theorem isCmgs_cmgsCommand (n : ℕ) : isCmgs (cmgsCommand n) = true := by
  have hdrop : (cmgsCommand n).drop 8 = Text.ofInt n := List.drop_left' rfl
  rw [isCmgs, Bool.and_eq_true, Text.startsWith, List.isPrefixOf_iff_prefix, hdrop,
    List.all_eq_true]
  exact ⟨List.prefix_append .., fun c hc => isDigit_of_mem_ofInt hc⟩

/-- A send that pays out writes the payload last. -/
theorem writes_of_paysOut {c : SendCall} {n : ℕ} (henc : c.encoded = some (pdu, n))
    (h : c.PaysOut) :
    (sendSms c).writes = [.escape, .command "AT+CMGF=0".toList, .command (cmgsCommand n),
      .payload pdu] := by
  obtain ⟨e, he, hok⟩ := payload_mem_iff.1 h
  obtain rfl : (pdu, n) = e := Option.some.inj (henc.symm.trans he)
  unfold sendSms
  simp only [henc, hok, Bool.not_true, Bool.false_eq_true, if_false]
  cases c.submit <;> rfl

theorem writes_of_not_paysOut {c : SendCall} {n : ℕ} (henc : c.encoded = some (pdu, n))
    (h : ¬ c.PaysOut) :
    (sendSms c).writes = [.escape, .command "AT+CMGF=0".toList, .command (cmgsCommand n)] := by
  have hok : (c.prompt n).1.ok = false := by
    rw [← Bool.not_eq_true]
    exact fun hok => h (payload_mem_iff.2 ⟨(pdu, n), henc, hok⟩)
  unfold sendSms
  simp only [henc, hok, Bool.not_false, if_true]

/-- **A send's own commands get through**, wherever the modem was, up to
the prompt, if it gives one. -/
theorem take_send (m : PromptModem) (b : Bool) (n : ℕ) :
    ∃ line, m.take b [.escape, .command "AT+CMGF=0".toList, .command (cmgsCommand n)] =
      { m with
        state := if b then .text [] else .command []
        carried := m.carried ++ [line, cmgsCommand n] } := by
  obtain ⟨line, hline⟩ := exists_escape m b
  have htake : m.take b [.escape, .command "AT+CMGF=0".toList, .command (cmgsCommand n)] =
      ((m.feed b PortWrite.escape.bytes).feed b (PortWrite.command "AT+CMGF=0".toList).bytes).feed b
        (PortWrite.command (cmgsCommand n)).bytes := rfl
  have hmode : isCmgs (line ++ "AT+CMGF=0".toList) = false :=
    isCmgs_eq_false (c := 'F') (by simp) (by decide) (by decide)
  have hplain : Plain "AT+CMGF=0".toList := by decide +kernel
  have hfirst := command_of_command (m := { m with state := .command line }) (b := b) rfl hplain
  rw [hmode] at hfirst
  have hlast := command_of_command (b := b) (m := { m with
    state := .command []
    carried := m.carried ++ [line ++ "AT+CMGF=0".toList] }) rfl (plain_cmgsCommand n)
  rw [List.nil_append, isCmgs_cmgsCommand, Bool.true_and, List.append_assoc,
    List.singleton_append] at hlast
  refine ⟨line ++ "AT+CMGF=0".toList, ?_⟩
  rw [htake, hline, hfirst]
  exact hlast

/-- What a send that pays out leaves. -/
theorem call_of_paysOut {c : SendCall} {n : ℕ} (henc : c.encoded = some (pdu, n))
    (hpdu : Plain pdu) (h : c.PaysOut) (m : PromptModem) (b : Bool) :
    ∃ line, m.call (.send c b) =
      { state := .command (if b then [] else pdu ++ ['\x1a'])
        carried := m.carried ++ [line, cmgsCommand n]
        submitted := m.submitted ++ if b then [pdu] else [] } := by
  obtain ⟨line, hline⟩ := take_send m b n
  refine ⟨line, ?_⟩
  have hcall : m.call (.send c b) =
      (m.take b [.escape, .command "AT+CMGF=0".toList, .command (cmgsCommand n)]).feed b
        (PortWrite.payload pdu).bytes := by
    rw [call, PortCall.writes, writes_of_paysOut henc h]
    rfl
  rw [hcall, hline]
  cases b with
  | true =>
    exact payload_of_text (m := { m with
      state := .text []
      carried := m.carried ++ [line, cmgsCommand n] }) rfl hpdu
  | false =>
    rw [if_neg Bool.false_ne_true, if_neg Bool.false_ne_true, if_neg Bool.false_ne_true,
      List.append_nil]
    exact payload_of_command (m := { m with
      state := .command []
      carried := m.carried ++ [line, cmgsCommand n] }) rfl hpdu

/-- What one leaves that does not. -/
theorem call_of_not_paysOut {c : SendCall} {n : ℕ} (henc : c.encoded = some (pdu, n))
    (h : ¬ c.PaysOut) (m : PromptModem) (b : Bool) :
    ∃ line, m.call (.send c b) =
      { m with
        state := if b then .text [] else .command []
        carried := m.carried ++ [line, cmgsCommand n] } := by
  obtain ⟨line, hline⟩ := take_send m b n
  refine ⟨line, ?_⟩
  rw [call, PortCall.writes, writes_of_not_paysOut henc h]
  exact hline

/-- A send of a message that cannot be encoded writes nothing. -/
theorem call_of_not_attempts {c : SendCall} (henc : c.encoded = none) (m : PromptModem)
    (b : Bool) : m.call (.send c b) = m := by
  rw [call, PortCall.writes, sendSms]
  simp only [henc]
  rfl

end PromptModem

/-! ## The last send of a run -/

section LastSend

variable {calls : List PortCall} {x : PortCall} {c : SendCall} {b : Bool}
variable {after : List PortCall}

theorem lastSend_concat_of_attempts (h : x.attempts = true) :
    LastSend (calls ++ [x]) c b after ↔ x = .send c b ∧ after = [] := by
  constructor
  · rintro ⟨before, heq, henc, hafter⟩
    rcases List.eq_nil_or_concat after with rfl | ⟨after, y, rfl⟩
    · exact ⟨(List.append_inj' heq rfl).2 |> fun h => (List.cons.inj h).1, rfl⟩
    · rw [List.concat_eq_append, ← List.cons_append, ← List.append_assoc] at heq
      obtain rfl := (List.cons.inj (List.append_inj' heq rfl).2).1
      rw [hafter x (by simp)] at h
      cases h
  · rintro ⟨rfl, rfl⟩
    exact ⟨calls, rfl, h, by simp⟩

theorem lastSend_concat_of_not_attempts (h : x.attempts = false) :
    LastSend (calls ++ [x]) c b after ↔
      ∃ after', after = after' ++ [x] ∧ LastSend calls c b after' := by
  constructor
  · rintro ⟨before, heq, henc, hafter⟩
    rcases List.eq_nil_or_concat after with rfl | ⟨after, y, rfl⟩
    · obtain rfl := (List.cons.inj (List.append_inj' heq rfl).2).1
      rw [PortCall.attempts, henc] at h
      cases h
    · rw [List.concat_eq_append] at heq hafter ⊢
      rw [← List.cons_append, ← List.append_assoc] at heq
      obtain ⟨hcalls, hx⟩ := List.append_inj' heq rfl
      obtain rfl := (List.cons.inj hx).1
      exact ⟨after, rfl, before, hcalls, henc, fun y hy => hafter y (List.mem_append_left _ hy)⟩
  · rintro ⟨after, rfl, before, rfl, henc, hafter⟩
    refine ⟨before, by simp, henc, fun y hy => ?_⟩
    rcases List.mem_append.1 hy with hy | hy
    · exact hafter y hy
    · rwa [List.mem_singleton.1 hy]

/-- There is one last send at most. -/
theorem LastSend.unique {c' : SendCall} {b' : Bool} {after' : List PortCall}
    (h : LastSend calls c b after) (h' : LastSend calls c' b' after') :
    c = c' ∧ b = b' ∧ after = after' := by
  induction calls using List.reverseRecOn generalizing after after' with
  | nil =>
    obtain ⟨before, heq, -⟩ := h
    simp at heq
  | append_singleton calls x ih =>
    cases hx : x.attempts with
    | true =>
      obtain ⟨rfl, rfl⟩ := (lastSend_concat_of_attempts hx).1 h
      obtain ⟨heq, rfl⟩ := (lastSend_concat_of_attempts hx).1 h'
      obtain ⟨rfl, rfl⟩ := PortCall.send.inj heq
      exact ⟨rfl, rfl, rfl⟩
    | false =>
      obtain ⟨rest, rfl, hrest⟩ := (lastSend_concat_of_not_attempts hx).1 h
      obtain ⟨rest', rfl, hrest'⟩ := (lastSend_concat_of_not_attempts hx).1 h'
      obtain ⟨rfl, rfl, rfl⟩ := ih hrest hrest'
      exact ⟨rfl, rfl, rfl⟩

/-- A send of its own decides whether the way is clear. -/
theorem clear_concat_send_iff (h : c.encoded.isSome = true) :
    Clear (calls ++ [.send c b]) ↔ (b = true ↔ c.PaysOut) := by
  constructor
  · intro hclear
    have hlast : LastSend (calls ++ [.send c b]) c b [] :=
      (lastSend_concat_of_attempts (x := .send c b) h).2 ⟨rfl, rfl⟩
    refine (hclear c b [] hlast).resolve_right ?_
    rintro ⟨-, cmd, hcmd⟩
    exact List.not_mem_nil hcmd
  · intro hstep c' b' after hlast
    obtain ⟨heq, -⟩ := (lastSend_concat_of_attempts (x := .send c b) h).1 hlast
    obtain ⟨rfl, rfl⟩ := PortCall.send.inj heq
    exact .inl hstep

/-- Another call leaves it clear. -/
theorem Clear.concat (h : Clear calls) (hx : x.attempts = false) : Clear (calls ++ [x]) := by
  intro c b after hlast
  obtain ⟨rest, rfl, hrest⟩ := (lastSend_concat_of_not_attempts hx).1 hlast
  refine (h c b rest hrest).imp_right fun ⟨hb, cmd, hcmd⟩ => ⟨hb, cmd, ?_⟩
  exact List.mem_append_left _ hcmd

/-- **Where a run leaves the modem**, by its last send: in a command line,
empty or with a payload in it, or in a message. -/
inductive Standing (calls : List PortCall) : PromptState → Prop
  | clear : Clear calls → Standing calls (.command [])
  | stuck {c : SendCall} {after : List PortCall} (msg : Text) :
      LastSend calls c true after → ¬ c.PaysOut → Standing calls (.text msg)
  | spoiled {c : SendCall} {after : List PortCall} {pdu : Text} :
      LastSend calls c false after → c.PaysOut → (∀ cmd, .command cmd ∉ after) →
      Plain pdu → Standing calls (.command (pdu ++ ['\x1a']))

/-- **One call.** -/
theorem Standing.call {m : PromptModem} (h : Standing calls m.state) (hx : x.Lawful) :
    Standing (calls ++ [x]) (m.call x).state := by
  cases x with
  | command cmd =>
    obtain ⟨hplain, hcmgs⟩ := hx
    have hcall : m.call (.command cmd) = m.feed true (PortWrite.command cmd).bytes := rfl
    rw [hcall]
    generalize hs : m.state = s at h
    cases h with
    | clear hclear =>
      rw [PromptModem.command_of_command hs hplain, List.nil_append, hcmgs]
      exact .clear (hclear.concat rfl)
    | stuck msg hlast hpays =>
      rw [PromptModem.command_of_text hs hplain]
      exact .stuck _ ((lastSend_concat_of_not_attempts rfl).2 ⟨_, rfl, hlast⟩) hpays
    | @spoiled c after pdu hlast hpays hafter hpdu =>
      have hcmgs' : isCmgs (pdu ++ ['\x1a'] ++ cmd) = false :=
        isCmgs_eq_false (c := '\x1a') (by simp) (by decide) (by decide)
      rw [PromptModem.command_of_command hs hplain, hcmgs']
      refine .clear fun c' b' after' hlast' => ?_
      -- the command has taken the payload off
      obtain ⟨rest, rfl, hrest⟩ := (lastSend_concat_of_not_attempts rfl).1 hlast'
      obtain ⟨-, rfl, -⟩ := hlast.unique hrest
      exact .inr ⟨rfl, cmd, by simp⟩
  | send c b =>
    cases henc : c.encoded with
    | none =>
      have hattempts : (PortCall.send c b).attempts = false := by
        rw [PortCall.attempts, henc]
        rfl
      rw [PromptModem.call_of_not_attempts henc]
      generalize m.state = s at h
      cases h with
      | clear hclear => exact .clear (hclear.concat hattempts)
      | stuck msg hlast hpays =>
        exact .stuck msg ((lastSend_concat_of_not_attempts hattempts).2 ⟨_, rfl, hlast⟩) hpays
      | spoiled hlast hpays hafter hpdu =>
        refine .spoiled ((lastSend_concat_of_not_attempts hattempts).2 ⟨_, rfl, hlast⟩) hpays
          (fun cmd hcmd => ?_) hpdu
        rcases List.mem_append.1 hcmd with hcmd | hcmd
        · exact hafter cmd hcmd
        · cases List.mem_singleton.1 hcmd
    | some e =>
      obtain ⟨pdu, n⟩ := e
      have hpdu : Plain pdu := hx _ henc
      have hsome : c.encoded.isSome = true := by rw [henc]; rfl
      have hlast : LastSend (calls ++ [.send c b]) c b [] :=
        (lastSend_concat_of_attempts (x := .send c b) hsome).2 ⟨rfl, rfl⟩
      by_cases hpays : c.PaysOut
      · obtain ⟨line, hline⟩ := PromptModem.call_of_paysOut henc hpdu hpays m b
        rw [hline]
        cases b with
        | true => exact .clear ((clear_concat_send_iff hsome).2 (iff_of_true rfl hpays))
        | false => exact .spoiled hlast hpays (fun cmd hcmd => List.not_mem_nil hcmd) hpdu
      · obtain ⟨line, hline⟩ := PromptModem.call_of_not_paysOut henc hpays m b
        rw [hline]
        cases b with
        | true => exact .stuck [] hlast hpays
        | false =>
          exact .clear ((clear_concat_send_iff hsome).2 (iff_of_false Bool.false_ne_true hpays))

end LastSend

end ZeroTouch
