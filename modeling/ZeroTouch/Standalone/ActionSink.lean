import ZeroTouch.Modem.RunAt
/-!
# Commands made of values

`DirectActionSink::set` writes the access point name it is given between
the quotes of an AT command, as it is. The modem takes the bytes it gets
for command lines, each up to a carriage return, and reads the name back
from between the quotes. What it makes of a quoted string is the modem's:
`AtDialect` says which characters stand for themselves in one, and every
other has a meaning of its own there or none.

The name the modem reads is the one that was set where all its characters
stand for themselves (`apnIntegrity_iff`). Otherwise it is another, or
there is no string at all, and with a carriage return in it what follows
is a command line of its own.
-/

namespace ZeroTouch

/-! ## Writing a command -/

/-- What `write` returns: `EAGAIN`, another error, or how many bytes it
took. -/
inductive WriteResult
  | again
  | error
  | wrote (n : ℕ)
  deriving DecidableEq, Repr

/-- `write_all`, over what its writes return: what it returns, if it does,
and the bytes the port took. -/
def writeAll : List WriteResult → Text → Option Bool × Text
  | _, [] => (some true, [])
  | [], _ :: _ => (none, [])
  | .again :: writes, c :: s => writeAll writes (c :: s)
  | .error :: _, _ :: _ => (some false, [])
  | .wrote n :: writes, c :: s =>
    let r := writeAll writes ((c :: s).drop n)
    (r.1, (c :: s).take n ++ r.2)

/-- What the port does during one call: how the writes return, and the
reads that return before the deadline. -/
structure CallIo where
  writes : List WriteResult
  reads : List Text

/-- `AtModem`: whether `m_fd` is open, the line buffer, and the bytes the
port has taken. -/
structure AtModem where
  isOpen : Bool
  rx : Text := []
  sent : Text := []

/-- **`AtModem::at`**, which does not return while a write does not. -/
def AtModem.at (m : AtModem) (cmd : Text) (io : CallIo) : Option AtResult × AtModem :=
  if !m.isOpen then (some {}, m)
  else
    let w := if cmd.isEmpty then (some true, []) else writeAll io.writes (cmd ++ ['\r'])
    match w.1 with
    | none => (none, { m with sent := m.sent ++ w.2 })
    | some false => (some {}, { m with sent := m.sent ++ w.2 })
    | some true =>
      let out := runAt cmd m.rx io.reads
      (some out.1, { m with rx := out.2.1, sent := m.sent ++ w.2 })

/-! ## The sink -/

/-- `"AT+CGDCONT=1,\"IP\",\"" + value + "\""`. -/
def apnCommand (value : Text) : Text :=
  "AT+CGDCONT=1,\"IP\",\"".toList ++ value ++ "\"".toList

/-- **`DirectActionSink::set`**, with what the port does during its first
call and during its second. -/
def DirectActionSink.set (m : AtModem) (key value : Text) (io io' : CallIo) :
    Option Bool × AtModem :=
  if key = "cell.apn".toList then
    let r := m.at (apnCommand value) io
    (r.1.map AtResult.ok, r.2)
  else if key = "cell.reset.request".toList then
    let down := m.at "AT+CFUN=0".toList io
    match down.1 with
    | none => (none, down.2)
    | some d =>
      let up := down.2.at "AT+CFUN=1".toList io'
      (up.1.map fun u => d.ok && u.ok, up.2)
  else (some true, m)

/-! ## The modem -/

/-- The command lines in what the modem gets, `cur` being the one it is
in: each ends at a carriage return. -/
def commandLinesGo : Text → Text → List Text
  | [], _ => []
  | c :: bytes, cur =>
    if c = '\r' then cur :: commandLinesGo bytes [] else commandLinesGo bytes (cur ++ [c])

/-- The command lines in what the modem gets. -/
def commandLines (bytes : Text) : List Text := commandLinesGo bytes []

/-- **How a modem reads a quoted string.** `content` is what it makes of
the text between the quotes, and nothing where that is no string. The
text is read as it stands where every character of it stands for itself,
and nowhere else: a quote ends a string, a control byte is not part of
one, and whatever else is not plain introduces an escape. -/
structure AtDialect where
  plain : Char → Bool
  content : Text → Option Text
  not_plain : ∀ c, c = '"' ∨ c.toNat < 32 → plain c = false
  content_eq_self_iff : ∀ s, content s = some s ↔ ∀ c ∈ s, plain c = true

/-- `q` is one quoted string, and the modem reads `v` from it. -/
def Quoted (D : AtDialect) (q v : Text) : Prop :=
  ∃ s, q = '"' :: (s ++ ['"']) ∧ D.content s = some v

/-- **The name set is the name the modem reads.** Whatever the port does,
the modem gets one command line at most, and that one defines the context
with a quoted string for `v`; and a `v` that no quoted string says is
refused, with nothing written. -/
def ApnIntegrity (D : AtDialect) (v : Text) : Prop :=
  ∀ (m : AtModem) (io io' : CallIo) (bytes : Text),
    (DirectActionSink.set m "cell.apn".toList v io io').2.sent = m.sent ++ bytes →
      (commandLines bytes).length ≤ 1 ∧
      (∀ l ∈ commandLines bytes, ∃ q, l = "AT+CGDCONT=1,\"IP\",".toList ++ q ∧ Quoted D q v) ∧
      ((∀ q, ¬ Quoted D q v) →
        (DirectActionSink.set m "cell.apn".toList v io io').1 = some false ∧ bytes = [])

/-! ## What reaches the modem -/

/-- The port takes the bytes in order. -/
theorem writeAll_prefix (writes : List WriteResult) (s : Text) : (writeAll writes s).2 <+: s := by
  fun_induction writeAll with
  | case1 => exact List.nil_prefix
  | case2 => exact List.nil_prefix
  | case3 writes c s ih => exact ih
  | case4 => exact List.nil_prefix
  | case5 n writes c s r ih =>
    obtain ⟨t, ht⟩ := ih
    exact ⟨t, by rw [List.append_assoc, ht, List.take_append_drop]⟩

/-- A port that takes everything at once. -/
theorem writeAll_whole {s : Text} (h : s ≠ []) : writeAll [.wrote s.length] s = (some true, s) := by
  obtain ⟨c, s, rfl⟩ := List.exists_cons_of_ne_nil h
  simp only [writeAll, List.drop_length, List.take_length, List.append_nil]

/-- A call writes its command's line, or the front of it. -/
theorem at_sent (m : AtModem) (cmd : Text) (io : CallIo) :
    ∃ w, (m.at cmd io).2.sent = m.sent ++ w ∧ w <+: cmd ++ ['\r'] := by
  unfold AtModem.at
  split
  · exact ⟨[], (List.append_nil _).symm, List.nil_prefix⟩
  · have hw : (if cmd.isEmpty then ((some true, []) : Option Bool × Text)
        else writeAll io.writes (cmd ++ ['\r'])).2 <+: cmd ++ ['\r'] := by
      split
      · exact List.nil_prefix
      · exact writeAll_prefix _ _
    refine ⟨_, ?_, hw⟩
    simp only
    split <;> rfl

/-- The whole line, where the port takes it at once. -/
theorem at_sent_whole {cmd : Text} (h : cmd ≠ []) (reads : List Text) :
    (AtModem.at ⟨true, [], []⟩ cmd ⟨[.wrote (cmd ++ ['\r']).length], reads⟩).2.sent =
      cmd ++ ['\r'] := by
  have hne : ¬ cmd.isEmpty = true := by simpa using h
  have hwhole : writeAll [.wrote (cmd ++ ['\r']).length] (cmd ++ ['\r']) =
      (some true, cmd ++ ['\r']) := writeAll_whole (by simp)
  simp only [AtModem.at, Bool.not_true, Bool.false_eq_true, if_false, if_neg hne, hwhole,
    List.nil_append]

theorem commandLinesGo_append {a : Text} (h : '\r' ∉ a) (t cur : Text) :
    commandLinesGo (a ++ t) cur = commandLinesGo t (cur ++ a) := by
  induction a generalizing cur with
  | nil => simp
  | cons c a ih =>
    rw [List.mem_cons, not_or] at h
    rw [List.cons_append, commandLinesGo, if_neg (Ne.symm h.1), ih h.2]
    simp

/-- One line for each carriage return. -/
theorem length_commandLinesGo (t cur : Text) :
    (commandLinesGo t cur).length = t.count '\r' := by
  induction t generalizing cur with
  | nil => rfl
  | cons c t ih =>
    rw [commandLinesGo]
    split
    · next hc => rw [List.length_cons, ih, hc, List.count_cons_self]
    · next hc => rw [ih, List.count_cons_of_ne hc]

theorem commandLines_whole {cmd : Text} (h : '\r' ∉ cmd) : commandLines (cmd ++ ['\r']) = [cmd] := by
  rw [commandLines, commandLinesGo_append h]
  simp [commandLinesGo]

/-- A command without a carriage return is one line once it is whole, and
none before. -/
theorem commandLines_of_prefix {cmd w : Text} (h : '\r' ∉ cmd) (hw : w <+: cmd ++ ['\r']) :
    commandLines w = [] ∨ commandLines w = [cmd] := by
  rcases List.prefix_concat_iff.1 hw with rfl | hpre
  · exact .inr (commandLines_whole h)
  · have hcr : '\r' ∉ w := fun hmem => h (hpre.subset hmem)
    have hgo := commandLinesGo_append hcr [] []
    rw [List.append_nil] at hgo
    exact .inl hgo

/-! ## When the name is safe -/

/-- The opening quote is the first character of the string. -/
theorem apnCommand_eq (v : Text) :
    apnCommand v = "AT+CGDCONT=1,\"IP\",".toList ++ '"' :: (v ++ ['"']) :=
  (List.append_assoc ("AT+CGDCONT=1,\"IP\",".toList ++ ['"']) v ['"']).trans
    (List.append_assoc "AT+CGDCONT=1,\"IP\",".toList ['"'] (v ++ ['"']))

theorem quoted_iff {D : AtDialect} {s v : Text} :
    Quoted D ('"' :: (s ++ ['"'])) v ↔ D.content s = some v := by
  unfold Quoted
  constructor
  · rintro ⟨s', hq, hs'⟩
    rwa [List.append_cancel_right (List.cons.inj hq).2]
  · intro h
    exact ⟨s, rfl, h⟩

theorem set_apn (m : AtModem) (v : Text) (io io' : CallIo) :
    DirectActionSink.set m "cell.apn".toList v io io' =
      ((m.at (apnCommand v) io).1.map AtResult.ok, (m.at (apnCommand v) io).2) :=
  if_pos rfl

theorem count_cr_apnCommand (v : Text) : (apnCommand v).count '\r' = v.count '\r' := by
  have hhead : "AT+CGDCONT=1,\"IP\",".toList.count '\r' = 0 := by decide
  rw [apnCommand_eq, List.count_append, hhead, List.count_cons_of_ne (by decide),
    List.count_append, List.count_singleton]
  simp

/-- Where the name is plain, its command is one line that says it. -/
theorem apnIntegrity_of_plain {D : AtDialect} {v : Text} (h : ∀ c ∈ v, D.plain c = true) :
    ApnIntegrity D v := by
  have hquoted : Quoted D ('"' :: (v ++ ['"'])) v := quoted_iff.2 ((D.content_eq_self_iff v).2 h)
  have hcr : '\r' ∉ apnCommand v := by
    rw [← List.count_eq_zero, count_cr_apnCommand, List.count_eq_zero]
    intro hmem
    have := h _ hmem
    rw [D.not_plain '\r' (.inr (by decide))] at this
    cases this
  intro m io io' bytes hsent
  rw [set_apn] at hsent ⊢
  obtain ⟨w, hw, hpre⟩ := at_sent m (apnCommand v) io
  obtain rfl : w = bytes := List.append_cancel_left (hw.symm.trans hsent)
  refine ⟨?_, fun l hl => ?_, fun hno => absurd hquoted (hno _)⟩
  · rcases commandLines_of_prefix hcr hpre with hlines | hlines <;> rw [hlines] <;> simp
  · rcases commandLines_of_prefix hcr hpre with hlines | hlines
    · rw [hlines] at hl
      cases hl
    · rw [hlines, List.mem_singleton] at hl
      exact ⟨_, hl.trans (apnCommand_eq v), hquoted⟩

/-- A name that is not plain breaks its promise on a port that takes the
whole command. -/
theorem plain_of_apnIntegrity {D : AtDialect} {v : Text} (h : ApnIntegrity D v) :
    ∀ c ∈ v, D.plain c = true := by
  have hne : apnCommand v ≠ [] := by
    rw [apnCommand_eq]
    exact List.append_ne_nil_of_right_ne_nil _ (List.cons_ne_nil _ _)
  have hsent : (DirectActionSink.set ⟨true, [], []⟩ "cell.apn".toList v
      ⟨[.wrote (apnCommand v ++ ['\r']).length], []⟩ ⟨[], []⟩).2.sent =
        [] ++ (apnCommand v ++ ['\r']) := by
    rw [set_apn]
    exact at_sent_whole hne []
  obtain ⟨hone, hline, -⟩ := h _ _ _ _ hsent
  -- one line at most, so the name has no carriage return, and the line is the command
  have hcr : '\r' ∉ apnCommand v := by
    rw [commandLines, length_commandLinesGo, List.count_append, List.count_singleton_self] at hone
    rw [← List.count_eq_zero]
    omega
  obtain ⟨q, hq, hquoted⟩ := hline (apnCommand v) (by
    rw [commandLines_whole hcr]
    exact List.mem_singleton_self _)
  rw [apnCommand_eq] at hq
  rw [← List.append_cancel_left hq, quoted_iff] at hquoted
  exact (D.content_eq_self_iff v).1 hquoted

/-- **When the name set is the name read.** The command keeps its promise
for a name exactly where every character of it stands for itself in a
quoted string of the modem's. -/
theorem apnIntegrity_iff (D : AtDialect) (v : Text) :
    ApnIntegrity D v ↔ ∀ c ∈ v, D.plain c = true :=
  ⟨plain_of_apnIntegrity, apnIntegrity_of_plain⟩

/-- A modem without escapes: a string is the text between the quotes, if
there is no quote and no control byte in it. -/
def verbatim : AtDialect where
  plain c := c ≠ '"' && decide (32 ≤ c.toNat)
  content s := if s.all (fun c => c ≠ '"' && decide (32 ≤ c.toNat)) then some s else none
  not_plain c h := by
    rcases h with rfl | h
    · decide
    · simp only [Bool.and_eq_false_iff, decide_eq_false_iff_not]
      exact .inr (by omega)
  content_eq_self_iff s := by
    rw [← List.all_eq_true]
    split <;> simp_all

/-- A name with commands of its own in it. -/
def hostileApn : Text := "a\"\rAT+CFUN=0\rAT+CGDCONT=1,\"IP\",\"b".toList

/-- **A name that is three commands**: the second takes the radio down,
and the call reports success. -/
theorem not_apnIntegrity_of_quote :
    ¬ (∀ v, ApnIntegrity verbatim v) ∧
      (DirectActionSink.set ⟨true, [], []⟩ "cell.apn".toList hostileApn
        ⟨[.wrote 54], ["OK\r\n".toList]⟩ ⟨[], []⟩).1 = some true ∧
      commandLines (DirectActionSink.set ⟨true, [], []⟩ "cell.apn".toList hostileApn
          ⟨[.wrote 54], ["OK\r\n".toList]⟩ ⟨[], []⟩).2.sent =
        ["AT+CGDCONT=1,\"IP\",\"a\"".toList, "AT+CFUN=0".toList,
          "AT+CGDCONT=1,\"IP\",\"b\"".toList] := by
  refine ⟨fun h => ?_, rfl, rfl⟩
  have hplain := plain_of_apnIntegrity (h hostileApn) '"' (by decide)
  exact absurd hplain (by decide)

end ZeroTouch
