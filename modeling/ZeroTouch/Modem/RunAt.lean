import ZeroTouch.Common.Text
/-!
# The AT line engine

`AtModem::run_at`: write a command, then read until a terminal line or
the deadline. What the serial port hands over is a sequence of reads, each
of any size; the reads a call is given are those that return before its
deadline, and the ones it does not get to are left for the next. The line
buffer `m_rx` survives the call.

The reads do not matter, only the bytes: `runAt_outcome` says what a call
does in terms of one scan of the buffer and everything read.
-/

namespace ZeroTouch

/-- `AtResult`. -/
structure AtResult where
  ok : Bool := false
  lines : List Text := []
  deriving DecidableEq, Repr

/-- `is_error`: the terminal lines of a refused command. -/
def isError (l : Text) : Bool :=
  l == "ERROR".toList || l.startsWith "+CME ERROR".toList || l.startsWith "+CMS ERROR".toList

/-- `if (!line.empty() && line.back() == '\r') line.pop_back()`. -/
def chopCr (line : Text) : Text :=
  if line.getLast? = some '\r' then line.dropLast else line

/-- Where a scan of the buffer stops: at a terminal line, with the result
and what is left of the buffer, or at the end of the last whole line, with
the lines so far and the partial one. -/
inductive Scan
  | done (res : AtResult) (rx : Text)
  | more (lines : List Text) (rx : Text)
  deriving DecidableEq, Repr

/-- The inner loop of `run_at`, with `cur` the line being read: blank lines
and the command's echo are dropped, a terminal line returns, and any other
is collected. -/
def lineLoop (cmd : Text) : Text → Text → List Text → Scan
  | cur, [], lines => .more lines cur
  | cur, c :: rest, lines =>
    if c = '\n' then
      let line := chopCr cur
      if line.isEmpty || line == cmd then lineLoop cmd [] rest lines
      else if line = "OK".toList then .done ⟨true, lines⟩ rest
      else if isError line then .done ⟨false, lines ++ [line]⟩ rest
      else lineLoop cmd [] rest (lines ++ [line])
    else lineLoop cmd (cur ++ [c]) rest lines

/-- The read loop of `run_at`: the result, the buffer it leaves, and the
reads it leaves. -/
def readLoop (cmd : Text) (wantPrompt : Bool) :
    Text → List Text → List Text → AtResult × Text × List Text
  | rx, lines, [] => (⟨false, lines⟩, rx, [])
  | rx, lines, buf :: reads =>
    let rx := rx ++ buf
    if wantPrompt && decide ('>' ∈ rx) then (⟨true, lines⟩, [], reads)
    else
      match lineLoop cmd [] rx lines with
      | .done res rx => (res, rx, reads)
      | .more lines rx => readLoop cmd wantPrompt rx lines reads

/-- **`AtModem::run_at`**, once the command is written. -/
def runAt (cmd rx : Text) (reads : List Text) (wantPrompt : Bool := false) :
    AtResult × Text × List Text :=
  readLoop cmd wantPrompt rx [] reads

/-! ## One scan, however the bytes come -/

/-- Scanning on from where a scan stopped. -/
theorem lineLoop_append (cmd cur a b : Text) (lines : List Text) :
    lineLoop cmd cur (a ++ b) lines =
      match lineLoop cmd cur a lines with
      | .done res rx => .done res (rx ++ b)
      | .more lines rx => lineLoop cmd rx b lines := by
  induction a generalizing cur lines with
  | nil => simp [lineLoop]
  | cons c a ih =>
    simp only [List.cons_append, lineLoop]
    split
    · split
      · exact ih _ _
      · split
        · rfl
        · split
          · rfl
          · exact ih _ _
    · exact ih _ _

/-- A text without a newline is only collected. -/
theorem lineLoop_of_no_newline {a : Text} (h : '\n' ∉ a) (cmd cur : Text) (lines : List Text) :
    lineLoop cmd cur a lines = .more lines (cur ++ a) := by
  induction a generalizing cur with
  | nil => simp [lineLoop]
  | cons c a ih =>
    have hc : c ≠ '\n' := fun hc => h (by simp [hc])
    rw [lineLoop, if_neg hc, ih (fun ha => h (by simp [ha]))]
    simp

/-- A scan that goes on has used up every newline. -/
theorem no_newline_of_more {cmd cur a rx : Text} {lines lines' : List Text} (hcur : '\n' ∉ cur)
    (h : lineLoop cmd cur a lines = .more lines' rx) : '\n' ∉ rx := by
  induction a generalizing cur lines with
  | nil =>
    simp only [lineLoop, Scan.more.injEq] at h
    exact h.2 ▸ hcur
  | cons c a ih =>
    simp only [lineLoop] at h
    split at h
    · split at h
      · exact ih (by simp) h
      · split at h
        · cases h
        · split at h
          · cases h
          · exact ih (by simp) h
    · rename_i hc
      refine ih ?_ h
      simp only [List.mem_append, List.mem_singleton, not_or]
      exact ⟨hcur, fun hn => hc hn.symm⟩

/-- The next read is scanned on from where the last one stopped. -/
theorem lineLoop_more_append {cmd rx a b : Text} {lines lines' : List Text}
    (h : lineLoop cmd [] a lines = .more lines' rx) :
    lineLoop cmd [] (rx ++ b) lines' = lineLoop cmd [] (a ++ b) lines := by
  rw [lineLoop_append cmd [] a b, h, lineLoop_append cmd [] rx b,
    lineLoop_of_no_newline (no_newline_of_more (by simp) h)]
  simp

/-- **A call that sees a terminal line** returns at it, and what it leaves
in the buffer and in the reads is what follows the line. -/
theorem readLoop_of_done {cmd rx rest : Text} {lines : List Text} {reads : List Text}
    {res : AtResult} (hne : reads ≠ [])
    (h : lineLoop cmd [] (rx ++ reads.flatten) lines = .done res rest) :
    ∃ rx' unread, readLoop cmd false rx lines reads = (res, rx', unread) ∧
      rx' ++ unread.flatten = rest := by
  induction reads generalizing rx lines with
  | nil => exact absurd rfl hne
  | cons buf reads ih =>
    simp only [readLoop, Bool.false_and, Bool.false_eq_true, if_false]
    rw [List.flatten_cons, ← List.append_assoc, lineLoop_append] at h
    cases hs : lineLoop cmd [] (rx ++ buf) lines with
    | done r rx' =>
      rw [hs] at h
      simp only [Scan.done.injEq] at h
      exact ⟨rx', reads, by rw [h.1], h.2⟩
    | more lines' rx' =>
      rw [hs] at h
      simp only at h ⊢
      rcases reads with _ | ⟨buf', reads⟩
      · simp [lineLoop] at h
      · refine ih (by simp) ?_
        rw [lineLoop_more_append hs, lineLoop_append, hs]
        exact h

/-- **A call that sees none** reads everything it is given and times
out. -/
theorem readLoop_of_more {cmd rx rx' : Text} {lines lines' : List Text} {reads : List Text}
    (hne : reads ≠ [])
    (h : lineLoop cmd [] (rx ++ reads.flatten) lines = .more lines' rx') :
    readLoop cmd false rx lines reads = (⟨false, lines'⟩, rx', []) := by
  induction reads generalizing rx lines with
  | nil => exact absurd rfl hne
  | cons buf reads ih =>
    simp only [readLoop, Bool.false_and, Bool.false_eq_true, if_false]
    rw [List.flatten_cons, ← List.append_assoc, lineLoop_append] at h
    cases hs : lineLoop cmd [] (rx ++ buf) lines with
    | done r rx'' =>
      rw [hs] at h
      cases h
    | more lines'' rx'' =>
      rw [hs] at h
      simp only at h ⊢
      rcases reads with _ | ⟨buf', reads⟩
      · simp only [List.flatten_nil, lineLoop, Scan.more.injEq] at h
        simp [readLoop, h.1, h.2]
      · refine ih (by simp) ?_
        rw [lineLoop_more_append hs, lineLoop_append, hs]
        exact h

/-! ## The cuts between reads -/

/-- What a call returns and leaves, by how its scan ended. -/
def Scan.outcome : Scan → AtResult × Text
  | .done res rest => (res, rest)
  | .more lines rx => (⟨false, lines⟩, rx)

/-- **A call is one scan** of the buffer and of all it is given to read. -/
theorem runAt_outcome (cmd rx : Text) {reads : List Text} (hne : reads ≠ []) :
    ((runAt cmd rx reads).1, (runAt cmd rx reads).2.1 ++ (runAt cmd rx reads).2.2.flatten) =
      (lineLoop cmd [] (rx ++ reads.flatten) []).outcome := by
  unfold runAt
  cases hscan : lineLoop cmd [] (rx ++ reads.flatten) [] with
  | done res rest =>
    obtain ⟨rx', unread, hrun, hrest⟩ := readLoop_of_done hne hscan
    simp only [hrun, hrest, Scan.outcome]
  | more lines rx' =>
    simp only [readLoop_of_more hne hscan, Scan.outcome, List.flatten_nil, List.append_nil]

/-- **The cuts do not matter.** The same bytes, cut into reads in any two
ways, give the same result, and leave the same bytes to the next call. -/
theorem runAt_same_of_same_bytes (cmd rx bytes : Text) {reads reads' : List Text}
    (hcut : ∀ r ∈ reads, r ≠ []) (hcut' : ∀ r ∈ reads', r ≠ []) (h : reads.flatten = bytes)
    (h' : reads'.flatten = bytes) :
    (runAt cmd rx reads).1 = (runAt cmd rx reads').1 ∧
      (runAt cmd rx reads).2.1 ++ (runAt cmd rx reads).2.2.flatten =
        (runAt cmd rx reads').2.1 ++ (runAt cmd rx reads').2.2.flatten := by
  -- no bytes at all are no reads, and then there is nothing to compare
  have hnil : ∀ {l : List Text}, (∀ r ∈ l, r ≠ []) → l.flatten = [] → l = [] := by
    intro l hl hflat
    refine List.eq_nil_iff_forall_not_mem.2 fun r hr => hl r hr ?_
    exact List.flatten_eq_nil_iff.1 hflat r hr
  by_cases hbytes : bytes = []
  · rw [hnil hcut (h.trans hbytes), hnil hcut' (h'.trans hbytes)]
    exact ⟨rfl, rfl⟩
  · have hne : reads ≠ [] := by
      rintro rfl
      exact hbytes h.symm
    have hne' : reads' ≠ [] := by
      rintro rfl
      exact hbytes h'.symm
    rw [← Prod.mk.injEq, runAt_outcome cmd rx hne, runAt_outcome cmd rx hne', h, h']

/-- A reply behind half a line, in one read and with its terminal line cut,
with the next reply's first bytes behind it. -/
theorem runAt_cut_reply :
    (runAt "AT".toList "\r\nO".toList ["K\r\n+CMT".toList]).1 =
        (runAt "AT".toList "\r\nO".toList ["K\r".toList, "\n+".toList, "CMT".toList]).1 ∧
      (runAt "AT".toList "\r\nO".toList ["K\r\n+CMT".toList]).2.1 ++
          (runAt "AT".toList "\r\nO".toList ["K\r\n+CMT".toList]).2.2.flatten =
        (runAt "AT".toList "\r\nO".toList ["K\r".toList, "\n+".toList, "CMT".toList]).2.1 ++
          (runAt "AT".toList "\r\nO".toList
            ["K\r".toList, "\n+".toList, "CMT".toList]).2.2.flatten :=
  runAt_same_of_same_bytes _ _ "K\r\n+CMT".toList (by decide) (by decide) (by decide) (by decide)

end ZeroTouch
