import ZeroTouch.Modem.RunAt
/-!
# Sending a message

`AtModem::send_sms`: an escape, `AT+CMGF=0`, `AT+CMGS=<length>`, and once
the modem has answered with its prompt the PDU and a Ctrl-Z. The wait for
the prompt is `run_at` with `want_prompt`, over the same buffer and the
same stream of bytes as every other call. It takes any `>` for the
prompt, also one sent before the command, and it ends with `OK` like any
other wait, so a late `OK` to `AT+CMGF=0` is a go-ahead too.
-/

namespace ZeroTouch

/-! ## The wait for the prompt -/

/-- The wait goes on past these reads: no terminal line has ended it. -/
def Waiting (cmd rx : Text) (lines before : List Text) : Prop :=
  before = [] ∨ ∃ lines' rx', lineLoop cmd [] (rx ++ before.flatten) lines = .more lines' rx'

/-- What the wait takes for a go-ahead: a `>` anywhere, or an `OK`. -/
def GoAhead (cmd bytes : Text) (lines : List Text) : Prop :=
  '>' ∈ bytes ∨ ∃ lines' rx', lineLoop cmd [] bytes lines = .done ⟨true, lines'⟩ rx'

/-- What a scan leaves in the buffer was in it. -/
theorem mem_of_mem_more {cmd cur a rx : Text} {lines lines' : List Text} {c : Char}
    (h : lineLoop cmd cur a lines = .more lines' rx) (hc : c ∈ rx) : c ∈ cur ++ a := by
  induction a generalizing cur lines with
  | nil =>
    simp only [lineLoop, Scan.more.injEq] at h
    simpa [h.2] using hc
  | cons d a ih =>
    simp only [lineLoop] at h
    split at h
    · have hdrop : c ∈ [] ++ a → c ∈ cur ++ d :: a := by
        intro hmem
        exact List.mem_append_right _ (List.mem_cons_of_mem _ hmem)
      split at h
      · exact hdrop (ih h)
      · split at h
        · cases h
        · split at h
          · cases h
          · exact hdrop (ih h)
    · simpa using ih h

/-- Behind bytes the wait went on past, the next read is a go-ahead where
they all together are. -/
theorem goAhead_more_iff {cmd rx a b : Text} {lines lines' : List Text}
    (h : lineLoop cmd [] a lines = .more lines' rx) (ha : '>' ∉ a) :
    GoAhead cmd (rx ++ b) lines' ↔ GoAhead cmd (a ++ b) lines := by
  have hrx : '>' ∉ rx := fun hmem => ha (by simpa using mem_of_mem_more h hmem)
  unfold GoAhead
  rw [lineLoop_more_append h, List.mem_append, List.mem_append, or_iff_right hrx, or_iff_right ha]

theorem waiting_more_iff {cmd rx rx' buf : Text} {lines lines' before : List Text}
    (h : lineLoop cmd [] (rx ++ buf) lines = .more lines' rx') :
    Waiting cmd rx' lines' before ↔ Waiting cmd rx lines (buf :: before) := by
  unfold Waiting
  rw [lineLoop_more_append h, List.flatten_cons, List.append_assoc]
  cases before with
  | nil => simp [h]
  | cons b before => simp

/-- **The wait succeeds at its first go-ahead**, if no terminal line comes
in an earlier read. -/
theorem readLoop_prompt_ok_iff {cmd rx : Text} {lines reads : List Text} :
    (readLoop cmd true rx lines reads).1.ok = true ↔
      ∃ before buf after, reads = before ++ buf :: after ∧ Waiting cmd rx lines before ∧
        GoAhead cmd (rx ++ before.flatten ++ buf) lines := by
  induction reads generalizing rx lines with
  | nil => simp [readLoop]
  | cons buf reads ih =>
    simp only [readLoop, Bool.true_and, decide_eq_true_eq]
    by_cases hgt : '>' ∈ rx ++ buf
    · rw [if_pos hgt]
      exact iff_of_true rfl ⟨[], buf, reads, rfl, .inl rfl, .inl (by simpa using hgt)⟩
    rw [if_neg hgt]
    cases hs : lineLoop cmd [] (rx ++ buf) lines with
    | done res rest =>
      constructor
      · intro hok
        refine ⟨[], buf, reads, rfl, .inl rfl, .inr ⟨res.lines, rest, ?_⟩⟩
        simpa only [List.flatten_nil, List.append_nil, ← hok] using hs
      · rintro ⟨before, buf', after, hreads, hwait, hgo⟩
        cases before with
        | nil =>
          obtain ⟨rfl, rfl⟩ := List.cons.inj hreads
          simp only [List.flatten_nil, List.append_nil] at hgo
          obtain ⟨lines', rx', hdone⟩ := hgo.resolve_left hgt
          rw [hs, Scan.done.injEq] at hdone
          rw [hdone.1]
        | cons b before =>
          obtain ⟨rfl, -⟩ := List.cons.inj hreads
          obtain ⟨lines', rx', hmore⟩ := hwait.resolve_left (List.cons_ne_nil _ _)
          rw [List.flatten_cons, ← List.append_assoc, lineLoop_append, hs] at hmore
          cases hmore
    | more lines' rx' =>
      simp only
      rw [ih]
      constructor
      · rintro ⟨before, buf', after, rfl, hwait, hgo⟩
        refine ⟨buf :: before, buf', after, rfl, (waiting_more_iff hs).1 hwait, ?_⟩
        rw [List.append_assoc, goAhead_more_iff hs hgt] at hgo
        simpa only [List.flatten_cons, List.append_assoc] using hgo
      · rintro ⟨before, buf', after, hreads, hwait, hgo⟩
        cases before with
        | nil =>
          obtain ⟨rfl, rfl⟩ := List.cons.inj hreads
          simp only [List.flatten_nil, List.append_nil] at hgo
          obtain ⟨lines'', rx'', hdone⟩ := hgo.resolve_left hgt
          rw [hs] at hdone
          cases hdone
        | cons b before =>
          obtain ⟨rfl, rfl⟩ := List.cons.inj hreads
          refine ⟨before, buf', after, rfl, (waiting_more_iff hs).2 hwait, ?_⟩
          rw [List.append_assoc, goAhead_more_iff hs hgt]
          simpa only [List.flatten_cons, List.append_assoc] using hgo

/-! ## One send -/

/-- What is written to the port. -/
inductive PortWrite
  | escape
  | command (cmd : Text)
  | payload (pdu : Text)
  deriving DecidableEq, Repr

/-- A call of `run_at`, over the bytes the modem has sent and no one has
read: the result, the buffer, and the bytes still unread. A command that
is not written is read nothing for. -/
def exchange (cmd rx wire : Text) (wantPrompt : Bool) : Option (List Text) → AtResult × Text × Text
  | none => ({}, rx, wire)
  | some reads =>
    let out := runAt cmd rx reads wantPrompt
    (out.1, out.2.1, out.2.2.flatten ++ wire.drop reads.flatten.length)

/-- The reads are the port's: not empty, at most the size of the buffer,
and the next bytes of the wire. -/
def Arrives (wire : Text) (call : Option (List Text)) : Prop :=
  ∀ reads ∈ call, (∀ r ∈ reads, r ≠ [] ∧ r.length ≤ 512) ∧ reads.flatten <+: wire

/-- `AT+CMGS` for a PDU of this length. -/
def cmgsCommand (tpduLen : ℕ) : Text := "AT+CMGS=".toList ++ Text.ofInt tpduLen

/-- **What a send meets**: what `encode_sms_submit` made of the message,
the buffer that earlier calls left, what the modem sends until `AT+CMGS`
is written, between that and the payload, and after it, and the reads of
each of the three waits. -/
structure SendCall where
  encoded : Option (Text × ℕ)
  rx : Text
  early : Text
  cmgf : Option (List Text)
  answer : Text
  cmgs : Option (List Text)
  late : Text
  /-- None where the payload is not written to its end. -/
  submit : Option (List Text)

/-- What comes of a send. -/
structure SendOutcome where
  ok : Bool
  writes : List PortWrite
  rx : Text
  deriving DecidableEq, Repr

namespace SendCall

variable (c : SendCall)

/-- The `AT+CMGF=0` exchange, its result unread. -/
def mode : AtResult × Text × Text := exchange "AT+CMGF=0".toList c.rx c.early false c.cmgf

/-- The buffer when `AT+CMGS` is written. -/
def rxAtCmgs : Text := c.mode.2.1

/-- What the modem has sent by then that no one has read. -/
def unreadAtCmgs : Text := c.mode.2.2

/-- The `AT+CMGS` exchange. -/
def prompt (tpduLen : ℕ) : AtResult × Text × Text :=
  exchange (cmgsCommand tpduLen) c.rxAtCmgs (c.unreadAtCmgs ++ c.answer) true c.cmgs

/-- The reads are such as the port can hand over. -/
structure Feasible : Prop where
  cmgf : Arrives c.early c.cmgf
  cmgs : Arrives (c.unreadAtCmgs ++ c.answer) c.cmgs
  submit : ∀ e ∈ c.encoded, Arrives ((c.prompt e.2).2.2 ++ c.late) c.submit

end SendCall

/-- **`AtModem::send_sms`.** -/
def sendSms (c : SendCall) : SendOutcome :=
  match c.encoded with
  | none => ⟨false, [], c.rx⟩
  | some (pdu, tpduLen) =>
    let writes : List PortWrite :=
      [.escape, .command "AT+CMGF=0".toList, .command (cmgsCommand tpduLen)]
    let p := c.prompt tpduLen
    if !p.1.ok then ⟨false, writes, p.2.1⟩
    else
      match c.submit with
      | none => ⟨false, writes ++ [.payload pdu], p.2.1⟩
      | some reads =>
        let fin := exchange [] p.2.1 (p.2.2 ++ c.late) false (some reads)
        ⟨fin.1.ok, writes ++ [.payload pdu], fin.2.1⟩

/-! ## Where the payload comes from -/

/-- The wait of a send gets no go-ahead: at each of its reads, up to the
first terminal line, the buffer holds neither a `>` nor an `OK` line. -/
def SendCall.Refused (c : SendCall) : Prop :=
  ∀ e ∈ c.encoded, ∀ reads ∈ c.cmgs, ∀ before buf after, reads = before ++ buf :: after →
    Waiting (cmgsCommand e.2) c.rxAtCmgs [] before →
      ¬ GoAhead (cmgsCommand e.2) (c.rxAtCmgs ++ before.flatten ++ buf) []

variable {c : SendCall}

/-- The payload goes out where the wait for the prompt is ok. -/
theorem payload_mem_iff :
    (∃ pdu, .payload pdu ∈ (sendSms c).writes) ↔
      ∃ e ∈ c.encoded, (c.prompt e.2).1.ok = true := by
  unfold sendSms
  cases c.encoded with
  | none => simp
  | some e =>
    obtain ⟨pdu, tpduLen⟩ := e
    by_cases hok : (c.prompt tpduLen).1.ok = true
    · cases c.submit <;> simp [hok]
    · simp [hok]

/-- Where the wait is refused nothing goes out, and nowhere else. -/
theorem payload_mem_iff_not_refused :
    (∃ pdu, .payload pdu ∈ (sendSms c).writes) ↔ ¬ c.Refused := by
  rw [payload_mem_iff]
  unfold SendCall.Refused
  push Not
  refine exists_congr fun e => and_congr_right fun _ => ?_
  unfold SendCall.prompt exchange
  cases c.cmgs with
  | none => simp
  | some reads =>
    simp only [runAt, readLoop_prompt_ok_iff, Option.mem_some_iff, exists_eq_left']

/-- **When the payload waits for the prompt.** A send writes the payload
only after a `>` that came behind its own `AT+CMGS` exactly where such a
`>` came, or where nothing else is taken for a go-ahead. -/
theorem sendSms_payload_after_prompt_iff (c : SendCall) :
    ((∃ pdu, .payload pdu ∈ (sendSms c).writes) → '>' ∈ c.answer) ↔
      '>' ∈ c.answer ∨ c.Refused := by
  rw [payload_mem_iff_not_refused, or_iff_not_imp_right]

/-- **The two ways it does not wait**: a `>` that was there before the
command, or an `OK` line. -/
theorem stale_of_payload (hc : c.Feasible) (hpay : ∃ pdu, .payload pdu ∈ (sendSms c).writes)
    (hanswer : '>' ∉ c.answer) :
    '>' ∈ c.rxAtCmgs ++ c.unreadAtCmgs ∨
      ∃ e ∈ c.encoded, ∃ reads ∈ c.cmgs, ∃ bytes lines rest, bytes <+: reads.flatten ∧
        lineLoop (cmgsCommand e.2) [] (c.rxAtCmgs ++ bytes) [] = .done ⟨true, lines⟩ rest := by
  rw [payload_mem_iff_not_refused] at hpay
  unfold SendCall.Refused at hpay
  push Not at hpay
  obtain ⟨e, he, reads, hreads, before, buf, after, rfl, -, hgo⟩ := hpay
  have hpre : before.flatten ++ buf <+: (before ++ buf :: after).flatten := by
    rw [List.flatten_append, List.flatten_cons, ← List.append_assoc]
    exact List.prefix_append _ _
  rw [List.append_assoc] at hgo
  rcases hgo with hgt | ⟨lines, rest, hdone⟩
  · refine .inl (List.mem_append.2 ?_)
    rcases List.mem_append.1 hgt with hrx | hbytes
    · exact .inl hrx
    · -- what is read is unread or of the answer, and the answer has none
      have hmem := (hpre.trans (hc.cmgs _ hreads).2).subset hbytes
      exact .inr ((List.mem_append.1 hmem).resolve_right hanswer)
  · exact .inr ⟨e, he, _, hreads, _, lines, rest, hpre, hdone⟩

/-- **A late `OK` is a go-ahead.** The answer to `AT+CMGF=0` comes after
its second, `AT+CMGS` is refused, and the payload goes out all the same. -/
def lateOk : SendCall where
  encoded := some ("0011000A91".toList, 18)
  rx := []
  early := "\r\nOK\r\n".toList
  cmgf := some []
  answer := "\r\n+CMS ERROR: 500\r\n".toList
  cmgs := some ["\r\nOK\r\n".toList]
  late := []
  submit := some []

theorem lateOk_feasible : lateOk.Feasible := by
  refine ⟨?_, ?_, ?_⟩
  · rintro reads hreads
    obtain rfl := Option.mem_some_iff.1 hreads
    decide
  · rintro reads hreads
    obtain rfl := Option.mem_some_iff.1 hreads
    decide
  · rintro e - reads hreads
    obtain rfl := Option.mem_some_iff.1 hreads
    simp

theorem not_payload_after_prompt_lateOk :
    ¬ ∀ c : SendCall, c.Feasible → (∃ pdu, .payload pdu ∈ (sendSms c).writes) → '>' ∈ c.answer := by
  intro h
  have hpay : .payload "0011000A91".toList ∈ (sendSms lateOk).writes := by decide
  exact absurd (h lateOk lateOk_feasible ⟨_, hpay⟩) (by decide)

end ZeroTouch
