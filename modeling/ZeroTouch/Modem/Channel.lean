import ZeroTouch.Common.Run
import ZeroTouch.Modem.RunAt
/-!
# Whose reply a call returns

A modem that answers every command once and in order, each with a block
of lines that ends in a terminal one, over a port that delays them as it
likes. The bytes it has yet to hand over are one queue, `wire`; a call
appends its own reply to it and is given whatever of the queue arrives
before its deadline, in reads of any size.

A call returns at the first terminal line it sees, which is its own only
if nothing was outstanding when it began. So a reply that comes after its
call's deadline is taken for the next command's, and every reply after
that one by one; while every reply comes in time, each call returns its
own.
-/

namespace ZeroTouch

/-- The lines that end a reply. -/
def isTerminal (l : Text) : Bool := l == "OK".toList || isError l

/-- **A reply**: lines that are not terminal, then one that is. -/
structure AtReply where
  body : List Text
  last : Text
  body_lines : ∀ l ∈ body, '\n' ∉ l ∧ isTerminal l = false
  last_line : '\n' ∉ last ∧ isTerminal last = true

namespace AtReply

variable (r : AtReply)

/-- The lines of the reply. -/
def lines : List Text := r.body ++ [r.last]

/-- What the modem sends: each line with its `CR LF`. -/
def bytes : Text := r.lines.flatMap fun l => l ++ "\r\n".toList

end AtReply

/-- A call of `AtModem::at`: one whose command never reached the port, or
an exchange, with the modem's reply to its command and the reads that
return before its deadline. -/
inductive AtCall
  | unwritten (cmd : Text)
  | exchange (cmd : Text) (reply : AtReply) (reads : List Text)

/-- What came of a call. -/
structure AtOutcome where
  cmd : Text
  reply : Option AtReply
  res : AtResult

/-- **The outcome is the command's own**: `ok` because the modem's reply
to this command was `OK`, with lines of that reply. -/
def AtOutcome.Attributed (o : AtOutcome) : Prop :=
  o.res.ok = true → ∃ r, o.reply = some r ∧ r.last = "OK".toList ∧ ∀ l ∈ o.res.lines, l ∈ r.lines

/-- The port: the line buffer, the bytes the modem has yet to hand over,
and the outcomes so far. -/
structure AtPort where
  rx : Text := []
  wire : Text := []
  log : List AtOutcome := []

/-- One call. The reads are what `read` can return: not empty, at most
the size of its buffer, and the next bytes of the wire. -/
def AtPort.step (p : AtPort) : AtCall → Option AtPort
  | .unwritten cmd => some { p with log := p.log ++ [⟨cmd, none, {}⟩] }
  | .exchange cmd reply reads =>
    let wire := p.wire ++ reply.bytes
    if (reads.all fun r => !r.isEmpty && decide (r.length ≤ 512)) &&
        reads.flatten.isPrefixOf wire then
      let out := runAt cmd p.rx reads
      some ⟨out.2.1, out.2.2.flatten ++ wire.drop reads.flatten.length,
        p.log ++ [⟨cmd, some reply, out.1⟩]⟩
    else none

/-- **The reply comes in time**: by the deadline of its call, all that the
modem has to say has arrived. -/
def InTime (p : AtPort) : AtCall → Prop
  | .unwritten _ => True
  | .exchange _ reply reads => reads.flatten = p.wire ++ reply.bytes

instance decidableInTime (p : AtPort) : ∀ a : AtCall, Decidable (InTime p a)
  | .unwritten _ => inferInstanceAs (Decidable True)
  | .exchange _ reply reads => inferInstanceAs (Decidable (reads.flatten = p.wire ++ reply.bytes))

/-! ## Scanning a reply -/

theorem chopCr_cr (l : Text) : chopCr (l ++ ['\r']) = l := by simp [chopCr]

/-- A whole line is dropped, ends the scan, or is collected. -/
theorem lineLoop_line {l : Text} (hl : '\n' ∉ l) (cmd rest : Text) (lines : List Text) :
    lineLoop cmd [] (l ++ "\r\n".toList ++ rest) lines =
      if l.isEmpty || l == cmd then lineLoop cmd [] rest lines
      else if l = "OK".toList then .done ⟨true, lines⟩ rest
      else if isError l then .done ⟨false, lines ++ [l]⟩ rest
      else lineLoop cmd [] rest (lines ++ [l]) := by
  have hcr : '\n' ∉ l ++ ['\r'] := by simpa using hl
  have hsplit : l ++ "\r\n".toList ++ rest = (l ++ ['\r']) ++ '\n' :: rest := by simp
  rw [hsplit, lineLoop_append, lineLoop_of_no_newline hcr]
  simp only [lineLoop, List.nil_append, if_true, chopCr_cr]

/-- A line that is not terminal leaves the scan going. -/
theorem lineLoop_body_line {l : Text} (hl : '\n' ∉ l ∧ isTerminal l = false) (cmd rest : Text)
    (lines : List Text) :
    ∃ lines', lineLoop cmd [] (l ++ "\r\n".toList ++ rest) lines = lineLoop cmd [] rest lines' ∧
      ∀ x ∈ lines', x ∈ lines ∨ x = l := by
  simp only [isTerminal, Bool.or_eq_false_iff, beq_eq_false_iff_ne] at hl
  rw [lineLoop_line hl.1]
  split
  · exact ⟨lines, rfl, fun x hx => .inl hx⟩
  · rw [if_neg hl.2.1, if_neg (by simp [hl.2.2])]
    exact ⟨lines ++ [l], rfl, fun x hx => by simpa using hx⟩

/-- Nor do any number of them. -/
theorem lineLoop_body {ls : List Text} (hls : ∀ l ∈ ls, '\n' ∉ l ∧ isTerminal l = false)
    (cmd rest : Text) (lines : List Text) :
    ∃ lines', lineLoop cmd [] (ls.flatMap (fun l => l ++ "\r\n".toList) ++ rest) lines =
        lineLoop cmd [] rest lines' ∧ ∀ x ∈ lines', x ∈ lines ∨ x ∈ ls := by
  induction ls generalizing lines with
  | nil => exact ⟨lines, rfl, fun x hx => .inl hx⟩
  | cons l ls ih =>
    obtain ⟨lines₁, h₁, hsub₁⟩ := lineLoop_body_line (hls l (by simp)) cmd
      (ls.flatMap (fun l => l ++ "\r\n".toList) ++ rest) lines
    obtain ⟨lines₂, h₂, hsub₂⟩ := ih (fun x hx => hls x (by simp [hx])) lines₁
    refine ⟨lines₂, ?_, fun x hx => ?_⟩
    · rw [List.flatMap_cons, List.append_assoc, h₁, h₂]
    · rcases hsub₂ x hx with hx | hx
      · rcases hsub₁ x hx with hx | rfl
        · exact .inl hx
        · exact .inr (by simp)
      · exact .inr (by simp [hx])

/-- **A reply, scanned alone, is used up**: the scan ends with its last
line, `ok` only if that is `OK`, or goes on past it where the last line is
the command's own text. -/
theorem lineLoop_reply (cmd : Text) (r : AtReply) :
    (∃ res, lineLoop cmd [] r.bytes [] = .done res [] ∧ (res.ok = true → r.last = "OK".toList) ∧
        ∀ l ∈ res.lines, l ∈ r.lines) ∨
      ∃ lines, lineLoop cmd [] r.bytes [] = .more lines [] := by
  obtain ⟨lines, hbody, hsub⟩ := lineLoop_body r.body_lines cmd (r.last ++ "\r\n".toList) []
  have hbytes : r.bytes = r.body.flatMap (fun l => l ++ "\r\n".toList) ++
      (r.last ++ "\r\n".toList) := by simp [AtReply.bytes, AtReply.lines]
  have hlines : ∀ l ∈ lines, l ∈ r.lines := fun l hl => by
    have := hsub l hl
    simp_all [AtReply.lines]
  have hlast := lineLoop_line r.last_line.1 cmd [] lines
  rw [List.append_nil] at hlast
  rw [hbytes, hbody, hlast]
  split
  · exact .inr ⟨lines, rfl⟩
  · split
    · rename_i hok
      exact .inl ⟨_, rfl, fun _ => hok, hlines⟩
    · rename_i hok
      have herr : isError r.last = true := by
        have := r.last_line.2
        simp_all [isTerminal]
      rw [if_pos herr]
      refine .inl ⟨_, rfl, by simp, fun l hl => ?_⟩
      rcases List.mem_append.1 hl with hl | hl
      · exact hlines l hl
      · simp_all [AtReply.lines]

/-! ## While every reply comes in time -/

theorem AtReply.bytes_ne_nil (r : AtReply) : r.bytes ≠ [] := by
  simp [AtReply.bytes, AtReply.lines]

/-- **A call given exactly its own reply** returns it, and leaves nothing
behind. -/
theorem runAt_own_reply {r : AtReply} {reads : List Text} (h : reads.flatten = r.bytes)
    (cmd : Text) :
    ∃ res unread, runAt cmd [] reads = (res, [], unread) ∧ unread.flatten = [] ∧
      (res.ok = true → r.last = "OK".toList ∧ ∀ l ∈ res.lines, l ∈ r.lines) := by
  have hne : reads ≠ [] := by
    rintro rfl
    exact r.bytes_ne_nil h.symm
  rcases lineLoop_reply cmd r with ⟨res, hscan, hok, hlines⟩ | ⟨lines, hscan⟩
  · have hscan' : lineLoop cmd [] ([] ++ reads.flatten) [] = .done res [] := by
      rw [List.nil_append, h, hscan]
    obtain ⟨rx', unread, hrun, hrest⟩ := readLoop_of_done hne hscan'
    obtain ⟨rfl, hun⟩ := List.append_eq_nil_iff.1 hrest
    exact ⟨res, unread, hrun, hun, fun ho => ⟨hok ho, hlines⟩⟩
  · have hscan' : lineLoop cmd [] ([] ++ reads.flatten) [] = .more lines [] := by
      rw [List.nil_append, h, hscan]
    exact ⟨_, [], readLoop_of_more hne hscan', rfl, by simp⟩

/-- Between calls nothing is outstanding, and every outcome so far is its
command's own. -/
structure InStep (p : AtPort) : Prop where
  rx_empty : p.rx = []
  wire_empty : p.wire = []
  attributed : ∀ o ∈ p.log, o.Attributed

theorem AtOutcome.attributed_of_not_ok {o : AtOutcome} (h : o.res.ok = false) : o.Attributed :=
  fun hok => absurd hok (by simp [h])

/-- One call in time keeps the port in step. -/
theorem InStep.step {p q : AtPort} {a : AtCall} (hp : InStep p) (ha : InTime p a)
    (h : p.step a = some q) : InStep q := by
  have hlog : ∀ o, o.Attributed → ∀ o' ∈ p.log ++ [o], o'.Attributed := by
    intro o ho o' ho'
    rcases List.mem_append.1 ho' with ho' | ho'
    · exact hp.attributed o' ho'
    · rw [List.mem_singleton.1 ho']
      exact ho
  cases a with
  | unwritten cmd =>
    simp only [AtPort.step, Option.some.injEq] at h
    subst h
    exact ⟨hp.rx_empty, hp.wire_empty, hlog _ (AtOutcome.attributed_of_not_ok rfl)⟩
  | exchange cmd reply reads =>
    simp only [InTime, hp.wire_empty, List.nil_append] at ha
    obtain ⟨res, unread, hrun, hun, hres⟩ := runAt_own_reply ha cmd
    simp only [AtPort.step, hp.wire_empty, hp.rx_empty, List.nil_append, hrun, hun] at h
    split at h
    · simp only [Option.some.injEq] at h
      subst h
      refine ⟨rfl, by simp [ha], hlog _ fun ho => ⟨reply, rfl, hres ho⟩⟩
    · cases h

/-- **While every reply comes in time, every call returns its own.** -/
theorem attributed_of_inTime {as : List AtCall} {p : AtPort}
    (hin : Along AtPort.step InTime {} as) (h : exec AtPort.step {} as = some p) :
    ∀ o ∈ p.log, o.Attributed :=
  (exec_invariant_along (I := InStep) (fun _ _ _ hI ha hs => hI.step ha hs)
    ⟨rfl, rfl, by simp⟩ hin h).attributed

/-- A bare `OK`. -/
def okReply : AtReply := ⟨[[]], "OK".toList, by decide, by decide⟩

/-- A bare `ERROR`. -/
def errorReply : AtReply := ⟨[[]], "ERROR".toList, by decide, by decide⟩

/-- Two commands, each answered in time, the first in two reads. -/
def radioCycle : List AtCall :=
  [.exchange "AT+CFUN=0".toList okReply ["\r\nO".toList, "K\r\n".toList],
    .exchange "AT+CFUN=1".toList errorReply ["\r\nERROR\r\n".toList]]

theorem attributed_radioCycle :
    Along AtPort.step InTime {} radioCycle ∧
      ∃ p, exec AtPort.step {} radioCycle = some p ∧
        p.log.map (fun o => o.res.ok) = [true, false] ∧ ∀ o ∈ p.log, o.Attributed :=
  have hin : Along AtPort.step InTime {} radioCycle := by decide
  ⟨hin, _, rfl, by decide, attributed_of_inTime hin rfl⟩

/-- **A late reply is the next command's.** The radio is told to go down
and answers `OK` too late; told to come up, it answers `ERROR`, and the
call returns the first answer. -/
theorem not_attributed_after_timeout :
    ¬ ∀ (as : List AtCall) (p : AtPort), exec AtPort.step {} as = some p →
      ∀ o ∈ p.log, o.Attributed := by
  intro h
  have hrun : exec AtPort.step {} [.exchange "AT+CFUN=0".toList okReply [],
      .exchange "AT+CFUN=1".toList errorReply ["\r\nOK\r\n".toList]] =
      some ⟨[], "\r\nERROR\r\n".toList,
        [⟨"AT+CFUN=0".toList, some okReply, {}⟩,
          ⟨"AT+CFUN=1".toList, some errorReply, ⟨true, []⟩⟩]⟩ :=
    rfl
  obtain ⟨r, hr, hlast, -⟩ :=
    h _ _ hrun ⟨"AT+CFUN=1".toList, some errorReply, ⟨true, []⟩⟩ (by simp) rfl
  have : errorReply = r := Option.some.inj hr
  subst this
  exact absurd hlast (by decide)

end ZeroTouch
