import ZeroTouch.Modem.Channel
import ZeroTouch.Modem.Drain
import ZeroTouch.Standalone.ActionSink
import ZeroTouch.Standalone.TextFile
/-!
# Asking the modem for its status

`DirectActionSink::get` asks the modem with an AT command, takes the first
line of the answer that opens with the command's tag, and reads the value
off the comma-separated fields behind the line's colon. The fields come
padded with blanks, quotes and whatever a line ended in.

So what is answered is what the reply says: `Fields` is the line as the
modem writes it, `Says` what the fields mean, and in a session in which
every reply came in time `get` answers exactly that, however the reply is
cut into reads (`DirectActionSink.get_answers_iff`).
-/

namespace ZeroTouch

/-! ## The fields of a line -/

/-- The padding before a field. -/
def isFieldPad (c : Char) : Bool := c = ' ' || c = '"'

/-- The padding behind it. -/
def isFieldEnd (c : Char) : Bool := c = ' ' || c = '"' || c = '\r'

/-- `flush`'s trim. -/
def trimField (cur : Text) : Text := (cur.dropWhile isFieldPad).rdropWhile isFieldEnd

/-- The loop of `at_fields`, with `cur` the field being read. -/
def atFieldsGo : Text → Text → List Text
  | [], cur => [trimField cur]
  | c :: line, cur =>
    if c = ',' then trimField cur :: atFieldsGo line [] else atFieldsGo line (cur ++ [c])

/-- **`at_fields`.** -/
def atFields (line : Text) : List Text :=
  match cut ':' line with
  | none => []
  | some (_, payload) => atFieldsGo payload []

/-- `AtResult::line_with`. -/
def AtResult.lineWith (r : AtResult) (tag : Text) : Text :=
  (r.lines.find? fun l => l.startsWith tag).getD []

/-- **The field within its padding.** -/
def Padded (raw f : Text) : Prop :=
  ∃ before after, raw = before ++ f ++ after ∧ (∀ c ∈ before, isFieldPad c = true) ∧
    (∀ c ∈ after, isFieldEnd c = true) ∧ (∀ c ∈ f.head?, isFieldPad c = false) ∧
    ∀ c ∈ f.getLast?, isFieldEnd c = false

/-- **A line of fields**: a tag, a colon, and the fields between commas,
each within its padding. -/
def Fields (line : Text) (fs : List Text) : Prop :=
  ∃ tag raws, line = tag ++ ':' :: [','].intercalate raws ∧ ':' ∉ tag ∧
    (∀ raw ∈ raws, ',' ∉ raw) ∧ fs ≠ [] ∧ List.Forall₂ Padded raws fs

theorem trimField_eq_iff {raw f : Text} : trimField raw = f ↔ Padded raw f := strip_eq_iff

theorem atFieldsGo_eq (line cur : Text) :
    atFieldsGo line cur = ((line.splitOn ',').modifyHead (cur ++ ·)).map trimField := by
  induction line generalizing cur with
  | nil => simp [atFieldsGo]
  | cons c line ih =>
    rw [atFieldsGo, List.splitOn_cons_eq_if_modifyHead]
    split
    · next hc =>
      subst hc
      rw [ih, if_pos (beq_self_eq_true ',')]
      cases line.splitOn ',' <;> simp
    · next hc =>
      rw [ih, if_neg (by simpa using hc)]
      cases line.splitOn ',' <;> simp

theorem atFieldsGo_nil (line : Text) : atFieldsGo line [] = (line.splitOn ',').map trimField := by
  rw [atFieldsGo_eq]
  cases line.splitOn ',' <;> simp

/-- Each field is trimmed on its own. -/
theorem map_trimField_eq_iff {raws fs : List Text} :
    raws.map trimField = fs ↔ List.Forall₂ Padded raws fs := by
  constructor
  · rintro rfl
    exact List.forall₂_map_right_iff.2 (List.forall₂_same.2 fun raw _ => trimField_eq_iff.1 rfl)
  · intro h
    induction h with
    | nil => rfl
    | cons hraw _ ih => rw [List.map_cons, trimField_eq_iff.2 hraw, ih]

/-- **What is read off a line is what stands in it.** A line without a
colon has no fields. -/
theorem atFields_eq_iff {line : Text} {fs : List Text} (hne : fs ≠ []) :
    atFields line = fs ↔ Fields line fs := by
  unfold atFields
  constructor
  · intro h
    split at h
    · exact absurd h.symm hne
    · next tag payload hcut =>
      obtain ⟨rfl, htag⟩ := cut_eq_some_iff.1 hcut
      rw [atFieldsGo_nil, map_trimField_eq_iff] at h
      exact ⟨tag, payload.splitOn ',', by rw [List.intercalate_splitOn], htag,
        fun raw hraw => Text.not_mem_of_mem_splitOn hraw, hne, h⟩
  · rintro ⟨tag, raws, rfl, htag, hcomma, -, hpad⟩
    have hraws : raws ≠ [] := by
      rintro rfl
      cases hpad
      exact hne rfl
    rw [cut_eq_some_iff.2 ⟨rfl, htag⟩]
    simp only [atFieldsGo_nil, List.splitOn_intercalate ',' hcomma hraws]
    exact map_trimField_eq_iff.2 hpad

/-! ## The sink -/

/-- `reg_label`. -/
def regLabel (stat : Text) : Text :=
  if stat = "1".toList then "home".toList
  else if stat = "5".toList then "roam".toList
  else if stat = "2".toList then "searching".toList
  else if stat = "3".toList then "denied".toList
  else if stat = "0".toList then "off".toList
  else "-".toList

/-- The registration, of the fields of its line: `<n>,<stat>`. -/
def readRegistration : List Text → Option (Option Text)
  | _ :: stat :: _ => some (some (regLabel stat))
  | _ => some none

/-- The signal: `<rssi>,<ber>`. Nothing is said of what comes of a sum
that does not fit an `int`. -/
def readSignal : List Text → Option (Option Text)
  | [] => some none
  | rssi :: _ =>
    if rssi = "99".toList then some none
    else
      match stoi rssi with
      -- the exception is caught
      | none => some none
      | some n =>
        if -2147483648 ≤ -113 + 2 * n ∧ 2 * n ≤ 2147483647 then
          some (some (Text.ofInt (-113 + 2 * n)))
        else none

/-- The address: `<cid>,<addr>`. -/
def readAddress : List Text → Option (Option Text)
  | _ :: addr :: _ =>
    if addr.isEmpty || addr == "0.0.0.0".toList then some none else some (some addr)
  | _ => some none

/-- What the branches of `get` share: the command is sent, and the value
read off the line with the tag. -/
def AtModem.ask (m : AtModem) (cmd tag : Text) (read : List Text → Option (Option Text))
    (io : CallIo) : Option (Option Text) × AtModem :=
  let r := m.at cmd io
  (r.1.bind fun res => if !res.ok then some none else read (atFields (res.lineWith tag)), r.2)

/-- **`DirectActionSink::get`**, which does not return while a write does
not. -/
def DirectActionSink.get (m : AtModem) (key : Text) (io : CallIo) :
    Option (Option Text) × AtModem :=
  if key = "cell.reg".toList ∨ key = "cell.reg.cs".toList then
    m.ask "AT+CREG?".toList "+CREG:".toList readRegistration io
  else if key = "cell.signal.dbm".toList then
    m.ask "AT+CSQ".toList "+CSQ:".toList readSignal io
  else if key = "cell.ip".toList then
    m.ask "AT+CGPADDR=1".toList "+CGPADDR:".toList readAddress io
  else (some none, m)

/-! ## What the modem says -/

/-- What `get` asks the modem for. -/
inductive StatusQuery
  | registration
  | signal
  | address
  deriving DecidableEq, Repr

namespace StatusQuery

/-- The keys it is asked for under. -/
def keys : StatusQuery → List Text
  | registration => ["cell.reg".toList, "cell.reg.cs".toList]
  | signal => ["cell.signal.dbm".toList]
  | address => ["cell.ip".toList]

def command : StatusQuery → Text
  | registration => "AT+CREG?".toList
  | signal => "AT+CSQ".toList
  | address => "AT+CGPADDR=1".toList

def tag : StatusQuery → Text
  | registration => "+CREG:".toList
  | signal => "+CSQ:".toList
  | address => "+CGPADDR:".toList

def read : StatusQuery → List Text → Option (Option Text)
  | registration => readRegistration
  | signal => readSignal
  | address => readAddress

end StatusQuery

/-- **What the fields of a line mean.** The strength of the signal is
`2 n - 113` dBm, and `99` and the address `0.0.0.0` are the modem's words
for not knowing. -/
inductive Says : StatusQuery → List Text → Text → Prop
  | registration (mode stat : Text) (more : List Text) :
      Says .registration (mode :: stat :: more) (regLabel stat)
  | signal {rssi : Text} {n : Int} (more : List Text) : rssi ≠ "99".toList → Denotes rssi n →
      -1073741767 ≤ n → n ≤ 1073741823 → Says .signal (rssi :: more) (Text.ofInt (2 * n - 113))
  | address (cid : Text) {addr : Text} (more : List Text) : addr ≠ [] →
      addr ≠ "0.0.0.0".toList → Says .address (cid :: addr :: more) addr

/-- **The first line with the tag.** -/
def FirstWith (tag : Text) (lines : List Text) (line : Text) : Prop :=
  ∃ before after, lines = before ++ line :: after ∧ tag <+: line ∧ ∀ l ∈ before, ¬ tag <+: l

theorem stoi_eq_some_iff {t : Text} {n : Int} :
    stoi t = some n ↔ Denotes t n ∧ -2147483648 ≤ n ∧ n ≤ 2147483647 := by
  have hstoi : stoi t =
      (leadingInt t).filter fun v => -2147483648 ≤ v ∧ v ≤ 2147483647 := by
    unfold stoi leadingInt
    dsimp only
    generalize List.takeWhile Char.isDigit _ = ds
    cases ds with
    | nil => rfl
    | cons d ds =>
      simp only [List.isEmpty_cons, Bool.false_eq_true, if_false, Option.filter_some,
        decide_eq_true_eq]
  rw [hstoi, Option.filter_eq_some_iff, leadingInt_eq_some_iff, decide_eq_true_eq]

theorem readSignal_iff {fs : List Text} {v : Text} :
    readSignal fs = some (some v) ↔ Says .signal fs v := by
  constructor
  · intro h
    cases fs with
    | nil => cases h
    | cons rssi more =>
      rw [readSignal] at h
      by_cases hknown : rssi = "99".toList
      · rw [if_pos hknown] at h
        cases h
      · rw [if_neg hknown] at h
        cases hn : stoi rssi with
        | none =>
          rw [hn] at h
          cases h
        | some n =>
          simp only [hn] at h
          by_cases hfit : -2147483648 ≤ -113 + 2 * n ∧ 2 * n ≤ 2147483647
          · rw [if_pos hfit] at h
            obtain rfl := Option.some.inj (Option.some.inj h)
            have hsum : -113 + 2 * n = 2 * n - 113 := by omega
            rw [hsum]
            exact .signal more hknown (stoi_eq_some_iff.1 hn).1 (by omega) (by omega)
          · rw [if_neg hfit] at h
            cases h
  · rintro (_ | ⟨more, hknown, hn, hlow, hhigh⟩ | _)
    rename_i rssi n
    have hstoi : stoi rssi = some n := stoi_eq_some_iff.2 ⟨hn, by omega, by omega⟩
    have hsum : -113 + 2 * n = 2 * n - 113 := by omega
    simp only [readSignal, if_neg hknown, hstoi]
    rw [if_pos ⟨by omega, by omega⟩, hsum]

/-- **What is read is what the fields mean.** -/
theorem StatusQuery.read_iff {q : StatusQuery} {fs : List Text} {v : Text} :
    q.read fs = some (some v) ↔ Says q fs v := by
  cases q with
  | registration =>
    constructor
    · intro h
      match fs with
      | mode :: stat :: more =>
        obtain rfl := Option.some.inj (Option.some.inj h)
        exact .registration mode stat more
    · rintro ⟨⟩
      rfl
  | signal => exact readSignal_iff
  | address =>
    constructor
    · intro h
      match fs with
      | cid :: addr :: more =>
        simp only [read, readAddress] at h
        split at h
        · cases h
        · next hknown =>
          obtain rfl := Option.some.inj (Option.some.inj h)
          rw [Bool.or_eq_true, not_or, List.isEmpty_iff, beq_iff_eq] at hknown
          exact .address cid more hknown.1 hknown.2
    · rintro (_ | _ | ⟨cid, more, hne, hzero⟩)
      simp only [read, readAddress, List.isEmpty_iff, beq_iff_eq, hne, hzero, Bool.or_eq_true,
        or_self, if_false]

/-! ## What a call of a reply's returns -/

/-- The lines that are collected of a block: blank ones are dropped, and
the command's echo. -/
def collected (cmd : Text) (ls : List Text) : List Text :=
  ls.filter fun l => !(l.isEmpty || l == cmd)

/-- Lines that are not terminal are collected, in order. -/
theorem lineLoop_collected {ls : List Text} (hls : ∀ l ∈ ls, '\n' ∉ l ∧ isTerminal l = false)
    (cmd rest : Text) (lines : List Text) :
    lineLoop cmd [] (ls.flatMap (fun l => l ++ "\r\n".toList) ++ rest) lines =
      lineLoop cmd [] rest (lines ++ collected cmd ls) := by
  induction ls generalizing lines with
  | nil => simp [collected]
  | cons l ls ih =>
    obtain ⟨hl, hterm⟩ := hls l (List.mem_cons_self ..)
    have ih := ih fun x hx => hls x (List.mem_cons_of_mem _ hx)
    simp only [isTerminal, Bool.or_eq_false_iff, beq_eq_false_iff_ne] at hterm
    rw [List.flatMap_cons, List.append_assoc, lineLoop_line hl]
    by_cases hdrop : (l.isEmpty || l == cmd) = true
    · rw [if_pos hdrop, ih, collected, collected, List.filter_cons_of_neg (by simp [hdrop])]
    · rw [if_neg hdrop, if_neg hterm.1, if_neg (by simp [hterm.2]), ih, collected, collected,
        List.filter_cons_of_pos (by simpa using hdrop), List.append_assoc, List.singleton_append]

/-- **A call given exactly its own reply**, whose command is no terminal
line, returns the reply's lines and whether it ended in `OK`. -/
theorem runAt_reply {r : AtReply} {reads : List Text} (h : reads.flatten = r.bytes) {cmd : Text}
    (hcmd : isTerminal cmd = false) :
    (runAt cmd [] reads).1 = ⟨decide (r.last = "OK".toList), collected cmd r.body ++
      if r.last = "OK".toList then [] else [r.last]⟩ := by
  have hne : reads ≠ [] := by
    rintro rfl
    exact r.bytes_ne_nil h.symm
  have hbytes : r.bytes = r.body.flatMap (fun l => l ++ "\r\n".toList) ++
      (r.last ++ "\r\n".toList) := by simp [AtReply.bytes, AtReply.lines]
  have hlast := lineLoop_line r.last_line.1 cmd [] (collected cmd r.body)
  have hkept : (r.last.isEmpty || r.last == cmd) = false := by
    have hterm := r.last_line.2
    rw [Bool.or_eq_false_iff, beq_eq_false_iff_ne]
    refine ⟨?_, ?_⟩
    · cases hl : r.last with
      | nil =>
        rw [hl] at hterm
        exact absurd hterm (by decide)
      | cons => rfl
    · intro heq
      rw [heq, hcmd] at hterm
      cases hterm
  rw [List.append_nil, if_neg (by simp [hkept])] at hlast
  have hscan : lineLoop cmd [] ([] ++ reads.flatten) [] =
      .done ⟨decide (r.last = "OK".toList), collected cmd r.body ++
        if r.last = "OK".toList then [] else [r.last]⟩ [] := by
    rw [List.nil_append, h, hbytes, lineLoop_collected r.body_lines, List.nil_append, hlast]
    by_cases hok : r.last = "OK".toList
    · simp [hok]
    · have herr : isError r.last = true := by
        have hterm := r.last_line.2
        rw [isTerminal, Bool.or_eq_true, beq_iff_eq] at hterm
        exact hterm.resolve_left hok
      rw [if_neg hok, if_pos herr, if_neg hok, decide_eq_false hok]
  obtain ⟨rx', unread, hrun, -⟩ := readLoop_of_done hne hscan
  rw [runAt, hrun]

/-- The tag finds the same line whether or not the echo was dropped. -/
theorem find?_collected {cmd tag : Text} (htag : tag ≠ []) (hcmd : ¬ tag <+: cmd)
    (ls : List Text) :
    ((collected cmd ls).find? fun l => l.startsWith tag) = ls.find? fun l => l.startsWith tag := by
  rw [collected, List.find?_filter]
  congr 1
  funext l
  by_cases hl : tag <+: l
  · have hne : l ≠ [] := by
      rintro rfl
      exact htag (List.prefix_nil.1 hl)
    have hecho : l ≠ cmd := by
      rintro rfl
      exact hcmd hl
    simp [hne, hecho]
  · have hstart : Text.startsWith l tag = false := by
      rw [Text.startsWith, ← Bool.not_eq_true, List.isPrefixOf_iff_prefix]
      exact hl
    simp [hstart]

theorem find?_startsWith_iff {tag line : Text} {ls : List Text} :
    (ls.find? fun l => l.startsWith tag) = some line ↔ FirstWith tag ls line := by
  simp only [List.find?_eq_some_iff_append, FirstWith, Text.startsWith, List.isPrefixOf_iff_prefix,
    Bool.not_eq_true', ← Bool.not_eq_true]
  constructor
  · rintro ⟨htag, before, after, hls, hbefore⟩
    exact ⟨before, after, hls, htag, hbefore⟩
  · rintro ⟨before, after, hls, htag, hbefore⟩
    exact ⟨htag, before, after, hls, hbefore⟩

/-! ## What is answered -/

/-- What is read off a reply that ended in `OK`. -/
theorem StatusQuery.read_lineWith_iff (q : StatusQuery) (body : List Text) (v : Text) :
    q.read (atFields (AtResult.lineWith ⟨true, collected q.command body⟩ q.tag)) = some (some v) ↔
      ∃ line fs, FirstWith q.tag body line ∧ Fields line fs ∧ Says q fs v := by
  have htag : q.tag ≠ [] := by cases q <;> decide
  have hecho : ¬ q.tag <+: q.command := by cases q <;> decide
  have hmeaning : ∀ fs, Says q fs v → fs ≠ [] := by
    rintro fs hv rfl
    cases hv
  rw [AtResult.lineWith, find?_collected htag hecho]
  cases hfind : body.find? fun l => l.startsWith q.tag with
  | none =>
    -- with no such line there are no fields, and those say nothing
    refine iff_of_false (fun hread => ?_) ?_
    · exact hmeaning _ (read_iff.1 hread) rfl
    · rintro ⟨line, fs, hfirst, -, -⟩
      rw [find?_startsWith_iff.2 hfirst] at hfind
      cases hfind
  | some line =>
    rw [Option.getD_some, read_iff]
    constructor
    · intro hv
      exact ⟨line, _, find?_startsWith_iff.1 hfind, (atFields_eq_iff (hmeaning _ hv)).1 rfl, hv⟩
    · rintro ⟨line', fs, hfirst, hfields, hv⟩
      rw [find?_startsWith_iff.2 hfirst] at hfind
      obtain rfl := Option.some.inj hfind
      rwa [(atFields_eq_iff (hmeaning _ hv)).2 hfields]

/-- A query in time is answered from its own reply. -/
theorem StatusQuery.ask_iff (q : StatusQuery) {m : AtModem} {io : CallIo} {r : AtReply}
    (hrx : m.rx = []) (hreply : io.reads.flatten = r.bytes) (v : Text) :
    (m.ask q.command q.tag q.read io).1 = some (some v) ↔
      m.isOpen = true ∧ (writeAll io.writes (q.command ++ ['\r'])).1 = some true ∧
        r.last = "OK".toList ∧
        ∃ line fs, FirstWith q.tag r.body line ∧ Fields line fs ∧ Says q fs v := by
  have hcmd : q.command.isEmpty = false := by cases q <;> rfl
  have hterm : isTerminal q.command = false := by cases q <;> decide
  unfold AtModem.ask AtModem.at
  cases hopen : m.isOpen with
  | false => simp
  | true =>
    simp only [hcmd, Bool.not_true, Bool.false_eq_true, if_false, hrx]
    cases hwrite : (writeAll io.writes (q.command ++ ['\r'])).1 with
    | none => simp
    | some whole =>
      cases whole with
      | false => simp
      | true =>
        have hres := runAt_reply hreply hterm
        simp only [Option.bind_some, true_and]
        by_cases hok : r.last = "OK".toList
        · rw [decide_eq_true hok, if_pos hok, List.append_nil] at hres
          simp only [hres, Bool.not_true, Bool.false_eq_true, if_false, hok, true_and]
          exact q.read_lineWith_iff r.body v
        · rw [decide_eq_false hok] at hres
          simp only [hres, Bool.not_false, if_true, hok, false_and, iff_false]
          rintro ⟨⟩

/-- No key is two queries'. -/
theorem StatusQuery.eq_of_mem_keys {q q' : StatusQuery} {key : Text} (h : key ∈ q.keys)
    (h' : key ∈ q'.keys) : q = q' := by
  have hdisjoint : ∀ key ∈ q.keys, key ∈ q'.keys → q = q' := by
    cases q <;> cases q' <;> decide
  exact hdisjoint key h h'

/-- A key of a query is asked for with its command. -/
theorem DirectActionSink.get_of_mem {q : StatusQuery} {key : Text} (h : key ∈ q.keys)
    (m : AtModem) (io : CallIo) :
    DirectActionSink.get m key io = m.ask q.command q.tag q.read io := by
  cases q with
  | registration =>
    refine if_pos ?_
    simpa only [StatusQuery.keys, List.mem_cons, List.not_mem_nil, or_false] using h
  | signal =>
    obtain rfl := List.mem_singleton.1 h
    rfl
  | address =>
    obtain rfl := List.mem_singleton.1 h
    rfl

/-- Any other key has no command. -/
theorem DirectActionSink.get_of_not_mem {key : Text} (h : ∀ q : StatusQuery, key ∉ q.keys)
    (m : AtModem) (io : CallIo) : DirectActionSink.get m key io = (some none, m) := by
  have hreg := h .registration
  simp only [StatusQuery.keys, List.mem_cons, List.not_mem_nil, or_false] at hreg
  have hsignal := List.mem_singleton.not.1 (h .signal)
  have haddress := List.mem_singleton.not.1 (h .address)
  rw [DirectActionSink.get, if_neg hreg, if_neg hsignal, if_neg haddress]

/-- **What is answered is what the modem said.** In every session in which
each reply came in time, for every key, reply and way the bytes come and
go: `get` answers `v` exactly when the key is one of its queries, the port
took the whole command, the reply ended in `OK`, and the fields of its
first line with the query's tag mean `v`. -/
theorem DirectActionSink.get_answers_iff {as : List AtCall} {p : AtPort}
    (hin : Along AtPort.step InTime {} as) (h : exec AtPort.step {} as = some p) (isOpen : Bool)
    (sent key : Text) (io : CallIo) (r : AtReply) (hreply : io.reads.flatten = p.wire ++ r.bytes)
    (v : Text) :
    (DirectActionSink.get ⟨isOpen, p.rx, sent⟩ key io).1 = some (some v) ↔
      isOpen = true ∧ ∃ q : StatusQuery, key ∈ q.keys ∧
        (writeAll io.writes (q.command ++ ['\r'])).1 = some true ∧ r.last = "OK".toList ∧
        ∃ line fs, FirstWith q.tag r.body line ∧ Fields line fs ∧ Says q fs v := by
  have hstep : InStep p :=
    exec_invariant_along (I := InStep) (fun _ _ _ hI ha hs => hI.step ha hs) ⟨rfl, rfl, by simp⟩
      hin h
  rw [hstep.wire_empty, List.nil_append] at hreply
  by_cases hkey : ∃ q : StatusQuery, key ∈ q.keys
  · obtain ⟨q, hq⟩ := hkey
    have hask := q.ask_iff (m := ⟨isOpen, p.rx, sent⟩) hstep.rx_empty hreply v
    rw [get_of_mem hq, hask]
    constructor
    · rintro ⟨hopen, hsent, hsaid⟩
      exact ⟨hopen, q, hq, hsent, hsaid⟩
    · rintro ⟨hopen, q', hq', hsent, hsaid⟩
      obtain rfl := StatusQuery.eq_of_mem_keys hq' hq
      exact ⟨hopen, hsent, hsaid⟩
  · rw [not_exists] at hkey
    rw [get_of_not_mem hkey]
    refine iff_of_false (by simp) ?_
    rintro ⟨-, q, hq, -⟩
    exact hkey q hq

/-- A registration, with a line of another's in front of it. -/
def roamingReply : AtReply :=
  { okReply with
    body := [[], "+CMTI: \"SM\",3".toList, "+CREG: 0,\"5\"".toList, []]
    body_lines := by decide }

/-- What the port does when it takes the command in two writes, and gives
the reply back in three reads. -/
def roamingIo : CallIo :=
  ⟨[.wrote 4, .again, .wrote 5], ["\r\n+CMTI: \"SM\",3\r\n+CR".toList,
    "EG: 0,\"5\"\r".toList, "\n\r\nOK\r\n".toList]⟩

/-- Asked for after a radio cycle. -/
theorem get_answers_iff_roaming :
    Along AtPort.step InTime {} radioCycle ∧
      ∃ p, exec AtPort.step {} radioCycle = some p ∧
        roamingIo.reads.flatten = p.wire ++ roamingReply.bytes ∧
        (DirectActionSink.get ⟨true, p.rx, []⟩ "cell.reg.cs".toList roamingIo).1 =
          some (some "roam".toList) := by
  have hin : Along AtPort.step InTime {} radioCycle := by decide
  have hreply : roamingIo.reads.flatten = [] ++ roamingReply.bytes := by decide
  have hfirst : FirstWith "+CREG:".toList roamingReply.body "+CREG: 0,\"5\"".toList :=
    find?_startsWith_iff.1 (by decide)
  have hfields : Fields "+CREG: 0,\"5\"".toList ["0".toList, "5".toList] :=
    (atFields_eq_iff (by simp)).1 (by decide)
  exact ⟨hin, _, rfl, hreply, (DirectActionSink.get_answers_iff hin rfl true [] _ _ _ hreply _).2
    ⟨rfl, .registration, by decide, by decide, rfl, _, _, hfirst, hfields,
      .registration "0".toList "5".toList []⟩⟩

end ZeroTouch
