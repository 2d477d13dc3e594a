import Mathlib.Algebra.BigOperators.Group.List.Basic
import Mathlib.Algebra.GroupWithZero.Nat
import ZeroTouch.Gnmi.Executor
/-!
# What a gnmi reply costs

An SMS carries 160 septets, and GSM 03.38 spends one on a character of
its basic table and two on a character of its extension table: the escape
and the character. `clamp_sms` counts the bytes of a `std::string`
instead. The two counts part at an extension character, which is one byte
and two septets, and at the rest of a UTF-8 sequence, which is bytes and
no septets; YANG list keys are written in brackets, which are extension
characters. `handle_oneSms_iff` is where the reply is one SMS all the
same, exactly.
-/

namespace ZeroTouch

/-! ## The alphabet -/

/-- The basic table of GSM 03.38. -/
def basicTable : List Char :=
  ['@', '£', '$', '¥', 'è', 'é', 'ù', 'ì', 'ò', 'Ç', '\n', 'Ø', 'ø', '\r', 'Å', 'å', 'Δ', '_',
    'Φ', 'Γ', 'Λ', 'Ω', 'Π', 'Ψ', 'Σ', 'Θ', 'Ξ', 'Æ', 'æ', 'ß', 'É', ' ', '!', '\x22', '#',
    '¤', '%', '&', '\x27', '(', ')', '*', '+', ',', '-', '.', '/', '0', '1', '2', '3', '4',
    '5', '6', '7', '8', '9', ':', ';', '<', '=', '>', '?', '¡', 'A', 'B', 'C', 'D', 'E', 'F',
    'G', 'H', 'I', 'J', 'K', 'L', 'M', 'N', 'O', 'P', 'Q', 'R', 'S', 'T', 'U', 'V', 'W', 'X',
    'Y', 'Z', 'Ä', 'Ö', 'Ñ', 'Ü', '§', '¿', 'a', 'b', 'c', 'd', 'e', 'f', 'g', 'h', 'i', 'j',
    'k', 'l', 'm', 'n', 'o', 'p', 'q', 'r', 's', 't', 'u', 'v', 'w', 'x', 'y', 'z', 'ä', 'ö',
    'ñ', 'ü', 'à']

/-- The extension table: form feed, caret, the braces, backslash, the
brackets around a tilde, bar and euro. -/
def extensionTable : List Char :=
  ['\x0c', '^', '\x7b', '\x7d', '\x5c', '\x5b', '~', '\x5d', '|', '\u20ac']

/-- The septets of a character. -/
def charSeptets (c : Char) : ℕ := if c ∈ extensionTable then 2 else 1

/-- The bytes of a character, as a `std::string` has them. -/
def utf8 (c : Char) : Text := (String.utf8EncodeChar c).map fun b => Char.ofNat b.toNat

/-- The text consists of characters of the alphabet. -/
def GsmText (t : Text) : Prop :=
  ∃ cs : List Char, (∀ c ∈ cs, c ∈ basicTable ∨ c ∈ extensionTable) ∧ cs.flatMap utf8 = t

/-! ## The cost of a string -/

/-- The byte continues a character. -/
def isContinuation (b : Char) : Bool := decide (0x80 ≤ b.toNat ∧ b.toNat < 0xc0)

/-- The byte begins a character of the extension table. -/
def isExtension (b : Char) : Bool := decide (b ∈ extensionTable.map fun c => (utf8 c).headD c)

/-- The septets of a character, counted at its first byte. -/
def byteSeptets (b : Char) : ℕ := if isContinuation b then 0 else if isExtension b then 2 else 1

/-- **The septets of a string.** A character that was cut counts as its
first byte does. -/
def septets (t : Text) : ℕ := (t.map byteSeptets).sum

@[simp] theorem septets_append (s t : Text) : septets (s ++ t) = septets s + septets t := by
  simp [septets]

/-- A string of the alphabet costs what its characters do. -/
theorem septets_flatMap_utf8 {cs : List Char}
    (h : ∀ c ∈ cs, c ∈ basicTable ∨ c ∈ extensionTable) :
    septets (cs.flatMap utf8) = (cs.map charSeptets).sum := by
  have htable : (basicTable ++ extensionTable).all
      (fun c => decide (septets (utf8 c) = charSeptets c)) = true := by decide +kernel
  have hchar : ∀ c ∈ basicTable ++ extensionTable, septets (utf8 c) = charSeptets c :=
    fun c hc => of_decide_eq_true (List.all_eq_true.1 htable c hc)
  induction cs with
  | nil => rfl
  | cons c cs ih =>
    rw [List.flatMap_cons, septets_append, List.map_cons, List.sum_cons,
      hchar c (List.mem_append.2 (h c (by simp))), ih fun d hd => h d (by simp [hd])]

/-- An extension character is one septet more than its byte, and the rest
of a sequence one septet less for each byte. -/
theorem septets_add_countP (t : Text) :
    septets t + t.countP isContinuation = t.length + t.countP isExtension := by
  have htable : (extensionTable.map fun c => (utf8 c).headD c).all
      (fun b => !isContinuation b) = true := by decide +kernel
  have hboth : ∀ b ∈ extensionTable.map fun c => (utf8 c).headD c, isContinuation b = false :=
    fun b hb => by simpa using List.all_eq_true.1 htable b hb
  induction t with
  | nil => rfl
  | cons b t ih =>
    have hcons : septets (b :: t) = byteSeptets b + septets t := by simp [septets]
    rw [hcons, List.countP_cons, List.countP_cons, List.length_cons]
    cases hx : isExtension b with
    | true =>
      have hc := hboth b (of_decide_eq_true hx)
      simp only [byteSeptets, hc, hx, Bool.false_eq_true, if_false, if_true]
      omega
    | false =>
      cases hc : isContinuation b with
      | true =>
        simp only [byteSeptets, hc, Bool.false_eq_true, if_false, if_true]
        omega
      | false =>
        simp only [byteSeptets, hc, hx, Bool.false_eq_true, if_false]
        omega

/-- **The text is one SMS when it is clamped.** A text that is not cut has
no more extension characters than it leaves bytes free; one that is cut has
none that is not made up for in what is left of it. In a text without
sequences, that is none at all. -/
def OneSms (t : Text) : Prop :=
  if t.length ≤ kMaxReply then t.length + t.countP isExtension ≤ kMaxReply + t.countP isContinuation
  else (t.take (kMaxReply - 3)).countP isExtension ≤ (t.take (kMaxReply - 3)).countP isContinuation

instance (t : Text) : Decidable (OneSms t) := by
  unfold OneSms
  split <;> infer_instance

theorem septets_clampSms_le_iff (t : Text) : septets (clampSms t) ≤ kMaxReply ↔ OneSms t := by
  unfold OneSms clampSms
  by_cases hle : t.length ≤ kMaxReply
  · rw [if_pos hle, if_pos hle]
    have := septets_add_countP t
    omega
  · rw [if_neg hle, if_neg (by decide), if_neg hle, septets_append]
    have hcut := septets_add_countP (t.take (kMaxReply - 3))
    have hlen : (t.take (kMaxReply - 3)).length = kMaxReply - 3 := by
      rw [List.length_take]
      omega
    have hdots : septets "...".toList = 3 := by decide +kernel
    have hmax : 3 ≤ kMaxReply := by decide
    omega

/-! ## The executor's replies -/

/-- The text a reply is made of, before it is clamped: what the command
and the access found decide, and what the backend answered. -/
def replyText (cmd : GnmiCommand) (access : Access) (r : GnmiResult) : Text :=
  match cmd.kind with
  | .notGnmi => []
  | .unknown => "ERR ".toList ++ cmd.error
  | .get =>
    if access = .none then "ERR GNMI GET login required".toList
    else if r.ok then "OK GNMI GET ".toList ++ renderRows true r.paths
    else "ERR GNMI GET ".toList ++ failureText r
  | .set =>
    if access ≠ .admin then "ERR GNMI SET admin login required".toList
    else if r.ok then
      "OK GNMI SET ".toList ++ Text.ofInt cmd.updates.length ++ " path(s) updated".toList
    else "ERR GNMI SET ".toList ++ failureText r

theorem formatGet_eq (r : GnmiResult) :
    formatGet r = clampSms (if r.ok then "OK GNMI GET ".toList ++ renderRows true r.paths
      else "ERR GNMI GET ".toList ++ failureText r) := by
  unfold formatGet
  cases r.ok <;> rfl

theorem formatSet_eq (r : GnmiResult) (n : ℕ) :
    formatSet r n = clampSms (if r.ok then
      "OK GNMI SET ".toList ++ Text.ofInt n ++ " path(s) updated".toList
      else "ERR GNMI SET ".toList ++ failureText r) := by
  unfold formatSet
  cases r.ok <;> rfl

/-- The text, the rows and the message of a result are of the alphabet. -/
def GsmResult (r : GnmiResult) : Prop :=
  GsmText r.grpcMessage ∧ ∀ p ∈ r.paths, GsmText p.xpath ∧ GsmText p.value ∧ GsmText p.error

namespace GnmiExecutor

variable {σ : Type} (E : GnmiExecutor σ)

/-- What the backend answers to a command. -/
def answer (cmd : GnmiCommand) (s : σ) : GnmiResult :=
  match cmd.kind with
  | .set => (E.sink.set cmd.updates s).1
  | _ => (E.sink.get cmd.xpaths s).1

/-- **Every reply is its text, clamped.** -/
theorem handle_eq_clampSms (cmd : GnmiCommand) (sender : Text) (w : σ × List Call) :
    (E.handle cmd sender w).1 =
      clampSms (replyText cmd (E.access sender w).1 (E.answer cmd (E.access sender w).2.1)) := by
  unfold handle replyText answer
  rw [traced_bind]
  cases cmd.kind with
  | notGnmi => rfl
  | unknown => rfl
  | get =>
    simp only
    by_cases ha : (E.access sender w).1 = .none
    · rw [if_pos ha, if_pos ha]
      rfl
    · rw [if_neg ha, if_neg ha, ← formatGet_eq]
      rfl
  | set =>
    simp only
    by_cases ha : (E.access sender w).1 ≠ .admin
    · rw [if_pos ha, if_pos ha]
      rfl
    · rw [if_neg ha, if_neg ha, ← formatSet_eq]
      rfl

/-- **When a reply is one SMS, exactly**, for every command, access and
answer of the backend. -/
theorem handle_oneSms_iff (cmd : GnmiCommand) (sender : Text) (w : σ × List Call) :
    septets (E.handle cmd sender w).1 ≤ kMaxReply ↔
      OneSms (replyText cmd (E.access sender w).1 (E.answer cmd (E.access sender w).2.1)) := by
  rw [handle_eq_clampSms]
  exact septets_clampSms_le_iff _

end GnmiExecutor

/-- The row of an interface that is up. -/
def interfaceRow (name : String) : GnmiPathResult :=
  ⟨"/interfaces/interface[name=".toList ++ name.toList ++ "]/config/enabled".toList,
    "true".toList, []⟩

/-- Three interfaces. -/
def interfacesResult : GnmiResult where
  ok := true
  grpcStatus := 0
  paths := [interfaceRow "eth0", interfaceRow "eth1", interfaceRow "wlan0"]

/-- An executor for a viewer, whose backend reads three interfaces. -/
def interfacesExecutor : GnmiExecutor Unit where
  sink := ⟨fun _ s => (interfacesResult, s), fun _ s => (interfacesResult, s)⟩
  auth := some fun _ s => (.viewer, s)

/-- **The reply of three interfaces is more than one SMS.** It is cut to
160 bytes, and the brackets before the cut cost two septets each. -/
theorem not_oneSms_interfaces :
    ¬ ∀ (E : GnmiExecutor Unit) (cmd : GnmiCommand) (sender : Text) (w : Unit × List Call),
      (∀ x ∈ cmd.xpaths, GsmText x) → (∀ u ∈ cmd.updates, GsmText u.1 ∧ GsmText u.2) →
      GsmText cmd.error → GsmResult (E.answer cmd (E.access sender w).2.1) →
      septets (E.handle cmd sender w).1 ≤ kMaxReply := by
  intro h
  -- an ASCII text of the alphabet is its own bytes
  have hascii : ∀ t ∈ ["/interfaces".toList, [], (interfaceRow "eth0").xpath,
      (interfaceRow "eth1").xpath, (interfaceRow "wlan0").xpath, "true".toList], GsmText t := by
    have hbytes : ∀ t ∈ ["/interfaces".toList, [], (interfaceRow "eth0").xpath,
        (interfaceRow "eth1").xpath, (interfaceRow "wlan0").xpath, "true".toList],
        t.all (fun c => decide (c ∈ basicTable ∨ c ∈ extensionTable)) = true ∧
          t.flatMap utf8 = t := by decide +kernel
    exact fun t ht => ⟨t, fun c hc =>
      of_decide_eq_true (List.all_eq_true.1 (hbytes t ht).1 c hc), (hbytes t ht).2⟩
  have hresult : GsmResult interfacesResult := by
    refine ⟨hascii [] (by simp), fun p hp => ?_⟩
    simp only [interfacesResult, List.mem_cons, List.not_mem_nil, or_false] at hp
    rcases hp with rfl | rfl | rfl <;>
      exact ⟨hascii _ (by simp), hascii "true".toList (by simp), hascii [] (by simp)⟩
  have hcost := h interfacesExecutor { kind := .get, xpaths := ["/interfaces".toList] }
    "+1".toList ((), []) (fun x hx => hascii x (by simp_all)) (by simp) (hascii [] (by simp))
    hresult
  exact absurd hcost (by decide +kernel)

end ZeroTouch
