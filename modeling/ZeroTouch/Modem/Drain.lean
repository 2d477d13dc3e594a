import Mathlib.Data.List.Perm.Subperm
import ZeroTouch.Common.Decimal
/-!
# Draining the SMS storage

The loop of `AtModem::drain_sms` over the lines `AT+CMGL=4` returned: a
header with an index, then a PDU. `handOvers` is what it hands over, in
order, each with the index of its header; every one of them is deleted
afterwards. The PDU decoder and the reassembler of the iot module are
parameters.
-/

namespace ZeroTouch

/-- `std::stoi`: the leading integer after white space; nothing where there
is none or it does not fit an `int`. -/
def stoi (t : Text) : Option Int :=
  let t := t.dropWhile isSpace
  let body := if t.head? = some '-' ∨ t.head? = some '+' then t.tail else t
  let ds := body.takeWhile Char.isDigit
  let v : Int := if t.head? = some '-' then -(digitsValue ds : Int) else digitsValue ds
  if ds.isEmpty then none
  else if -2147483648 ≤ v ∧ v ≤ 2147483647 then some v
  else none

/-- `cellular::SmsMessage`: a decoded PDU. `total` is zero for a message of
one part; otherwise `reference`, `total` and `seq` are its concatenation
header. -/
structure SmsMessage where
  sender : Text
  text : Text
  scts : Text
  index : Int := -1
  reference : ℕ := 0
  total : ℕ := 0
  seq : ℕ := 0
  deriving DecidableEq, Repr

/-- `+CMGL:`. -/
def cmgl : Text := "+CMGL:".toList

/-- **The loop of `drain_sms`.** A line that is no header, or whose index
does not parse, is passed by; a header whose PDU does not decode is passed
by with it. The last line is never a header. -/
def handOvers (decode : Text → Option SmsMessage) : List Text → List SmsMessage
  | line :: pdu :: rest =>
    if !line.startsWith cmgl then handOvers decode (pdu :: rest)
    else
      match stoi (line.drop cmgl.length) with
      -- the exception is caught, and the next line is looked at as a header
      | none => handOvers decode (pdu :: rest)
      | some index =>
        match decode pdu with
        | none => handOvers decode rest
        | some msg => { msg with index := index } :: handOvers decode rest
  | _ => []

/-- Behind a header, the next line is tried as its PDU. -/
theorem handOvers_header {decode : Text → Option SmsMessage} {header : Text} {index : Int}
    (hh : header.startsWith cmgl = true) (hi : stoi (header.drop cmgl.length) = some index)
    (pdu : Text) (rest : List Text) :
    handOvers decode (header :: pdu :: rest) =
      ((decode pdu).map fun d => { d with index := index }).toList ++ handOvers decode rest := by
  simp only [handOvers, hh, hi, Bool.not_true, Bool.false_eq_true, if_false]
  cases decode pdu <;> rfl

/-! ## The storage, listed -/

/-- **A stored SMS**: its slot, the header it is listed under and its PDU.
`id` tells apart two that are otherwise the same. -/
structure StoredSms where
  id : ℕ
  index : Int
  header : Text
  pdu : Text
  header_cmgl : header.startsWith cmgl = true
  header_index : stoi (header.drop cmgl.length) = some index
  deriving DecidableEq

/-- The lines a listing is made of. -/
def listing (es : List StoredSms) : List Text := es.flatMap fun e => [e.header, e.pdu]

/-- A decoded SMS with the identity of what it was decoded from. -/
abbrev Part : Type := ℕ × SmsMessage

/-- What a stored SMS is handed over as, if it decodes. -/
def StoredSms.part (decode : Text → Option SmsMessage) (e : StoredSms) : Option Part :=
  (decode e.pdu).map fun m => (e.id, { m with index := e.index })

/-- What a listing hands over. -/
def parts (decode : Text → Option SmsMessage) (es : List StoredSms) : List Part :=
  es.filterMap (StoredSms.part decode)

/-- **The loop hands over a listing's decodable messages**, in order, each
under its own index. -/
theorem handOvers_listing (decode : Text → Option SmsMessage) (es : List StoredSms) :
    handOvers decode (listing es) = (parts decode es).map Prod.snd := by
  induction es with
  | nil => rfl
  | cons e es ih =>
    have hlist : listing (e :: es) = e.header :: e.pdu :: listing es := rfl
    rw [hlist, handOvers_header e.header_cmgl e.header_index, ih]
    cases hd : decode e.pdu with
    | none => simp [parts, StoredSms.part, hd]
    | some m => simp [parts, StoredSms.part, hd]

/-! ## The reassembler -/

/-- Two parts of one message. -/
def SameMessage (m m' : SmsMessage) : Prop :=
  m.sender = m'.sender ∧ m.reference = m'.reference ∧ m.total = m'.total

instance (m m' : SmsMessage) : Decidable (SameMessage m m') :=
  inferInstanceAs (Decidable (_ ∧ _ ∧ _))

/-- Every part of the message `m` belongs to is among `ps`. -/
def Covers (m : SmsMessage) (ps : List Part) : Prop :=
  ∀ k ∈ List.range m.total, ∃ p ∈ ps, SameMessage m p.2 ∧ p.2.seq = k + 1

instance (m : SmsMessage) (ps : List Part) : Decidable (Covers m ps) :=
  inferInstanceAs (Decidable
    (∀ k ∈ List.range m.total, ∃ p ∈ ps, SameMessage m p.2 ∧ p.2.seq = k + 1))

/-- A message, whole: one part that needs no other, or all of them. -/
def Whole (ps : List Part) : Prop := ∃ p ∈ ps, p.2.total = 0 ∨ Covers p.2 ps

/-- Every part among `ps` is among `qs`, or another copy of it is. -/
def Keeps (ps qs : List Part) : Prop :=
  ∀ p ∈ ps, ∃ q ∈ qs, SameMessage p.2 q.2 ∧ q.2.seq = p.2.seq

theorem Keeps.of_subset {ps qs : List Part} (h : ∀ p ∈ ps, p ∈ qs) : Keeps ps qs :=
  fun p hp => ⟨p, h p hp, ⟨rfl, rfl, rfl⟩, rfl⟩

theorem Covers.mono {m : SmsMessage} {ps qs : List Part} (h : Covers m ps) (hk : Keeps ps qs) :
    Covers m qs := by
  intro k hk'
  obtain ⟨p, hp, hsame, hseq⟩ := h k hk'
  obtain ⟨q, hq, hpq, hpq'⟩ := hk p hp
  exact ⟨q, hq, ⟨hsame.1.trans hpq.1, hsame.2.1.trans hpq.2.1, hsame.2.2.trans hpq.2.2⟩,
    hpq'.trans hseq⟩

/-- Being complete is a fact about the message, not about the part it is
read off. -/
theorem Covers.of_same {m m' : SmsMessage} {ps : List Part} (h : Covers m ps)
    (hs : SameMessage m m') : Covers m' ps := by
  intro k hk
  obtain ⟨p, hp, hsame, hseq⟩ := h k (by rw [hs.2.2]; exact hk)
  exact ⟨p, hp, ⟨hs.1.symm.trans hsame.1, hs.2.1.symm.trans hsame.2.1,
    hs.2.2.symm.trans hsame.2.2⟩, hseq⟩

theorem Whole.mono {ps qs : List Part} (h : Whole ps) (hsub : ∀ p ∈ ps, p ∈ qs) : Whole qs := by
  obtain ⟨p, hp, h | h⟩ := h
  · exact ⟨p, hsub p hp, .inl h⟩
  · exact ⟨p, hsub p hp, .inr (h.mono (.of_subset hsub))⟩

/-- **`cellular::SmsReassembler`**, as far as it is relied on: it holds
the parts it was given, hands out a message once all of its parts are
there, and forgets the parts it hands out. `add` also reports which parts
those are. -/
structure SmsReassembler where
  State : Type
  init : State
  add : State → Part → State × Option (SmsMessage × List Part)
  held : State → List Part
  held_init : held init = []
  /-- An incomplete message is kept. -/
  add_none : ∀ s p s', add s p = (s', none) →
    (held s').Subperm (p :: held s) ∧ Keeps (p :: held s) (held s')
  /-- A message handed out is made of parts that were held, all there are
  of it, and these are held no longer. -/
  add_some : ∀ s p s' full used, add s p = (s', some (full, used)) →
    (used ++ held s').Subperm (p :: held s) ∧ p ∈ used ∧ Covers p.2 used
  /-- A complete message is handed out. -/
  add_complete : ∀ s p, Covers p.2 (p :: held s) → (add s p).2 ≠ none

/-- Put the texts of a message's parts in order. -/
def assemble (m : SmsMessage) (ps : List Part) : SmsMessage :=
  { m with text := (List.range m.total).flatMap fun k =>
      ((ps.find? fun p => p.2.seq = k + 1).map fun p => p.2.text).getD [] }

/-- A reassembler that keeps its parts in a list. -/
def listReassembler : SmsReassembler where
  State := List Part
  init := []
  held s := s
  add s p :=
    let mine := (p :: s).filter fun q => decide (SameMessage p.2 q.2)
    if Covers p.2 mine then
      ((p :: s).filter fun q => !decide (SameMessage p.2 q.2), some (assemble p.2 mine, mine))
    else (p :: s, none)
  held_init := rfl
  add_none s p s' h := by
    dsimp only at h
    split at h
    · simp at h
    · simp only [Prod.mk.injEq, and_true] at h
      rw [← h]
      exact ⟨.refl _, .of_subset fun _ hp => hp⟩
  add_some s p s' full used h := by
    dsimp only at h
    split at h
    · rename_i hc
      simp only [Prod.mk.injEq, Option.some.injEq] at h
      obtain ⟨rfl, rfl, rfl⟩ := h
      refine ⟨(List.filter_append_perm _ _).subperm, ?_, hc⟩
      simp [SameMessage]
    · simp at h
  add_complete s p h := by
    have hc : Covers p.2 ((p :: s).filter fun q => decide (SameMessage p.2 q.2)) := by
      intro k hk
      obtain ⟨q, hq, hsame, hseq⟩ := h k hk
      exact ⟨q, List.mem_filter.2 ⟨hq, by simpa using hsame⟩, hsame, hseq⟩
    simp [hc]

end ZeroTouch
