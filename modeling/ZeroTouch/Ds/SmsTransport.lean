import Mathlib.Order.Basic
import ZeroTouch.Common.Lists
import ZeroTouch.Common.Run
import ZeroTouch.Transport
/-!
# Inbound SMS over the data store

`DsSmsTransport` over the slot `sms.last.*` that cellular-client
overwrites, as a system of steps: the slot is written and `sms.version`
bumped after it, a bump queues an event once the watch is registered, the
listener thread turns events into the flag `m_sms_dirty`, and the reactor
thread takes the flag, reads the slot and delivers what it has not seen.
`start` reads the baseline first and registers the watch after it.

The slot holds one message and the flag remembers one bump. A message
that is overwritten before a drain reads it, or announced before the
watch, is not delivered; every other is, once
(`delivered_of_quiescent`).
-/

namespace ZeroTouch

/-- Where the thread that starts the transport and then runs the reactor
is. -/
inductive ReactorPc
  /-- Before `start`. -/
  | fresh
  /-- In `start`, between the baseline and the watch. -/
  | baselined
  /-- In the reactor's loop. -/
  | idle
  /-- In `handle_exception`, with the flag taken: before `read_last`. -/
  | draining
  /-- In `drain_inbound`, with what it has read. -/
  | read (k : ℕ) (sms : InboundSms)
  deriving DecidableEq, Repr

/-- **The transport and the slot it reads.** `initial` is what the slot
held at first and `published` everything written to it since, so that the
slot's content is number `published.length`. -/
structure DsSmsTransport where
  initial : InboundSms
  published : List InboundSms := []
  slot : InboundSms := initial
  watching : Bool := false
  /-- Events queued and not yet called back. -/
  events : ℕ := 0
  dirty : Bool := false
  pc : ReactorPc := .fresh
  /-- `m_seen_sender`, `m_seen_text` and `m_seen_ts`. -/
  seen : InboundSms := ⟨[], [], []⟩
  /-- What was passed to `on_message`, each with its number. -/
  log : List (ℕ × InboundSms) := []
  /-- The number of the content the baseline was read from. -/
  baseline : Option ℕ := none
  /-- The numbers of what drains have read and come to an end of. -/
  drained : List ℕ := []
  /-- The slot's content was followed by a bump that queued an event. -/
  announced : Bool := false

/-- A step of the transport or of cellular-client. -/
inductive DsAct
  /-- cellular-client writes the slot. -/
  | publish (sms : InboundSms)
  /-- `sms.version` changes. -/
  | bump
  /-- `start`, up to the watch: whether the baseline could be read. -/
  | baseline (ok : Bool)
  /-- The rest of `start`. -/
  | watch
  /-- The listener thread calls back for an event. -/
  | callback
  /-- `handle_exception`, up to the drain. -/
  | wake
  /-- `read_last` in `drain_inbound`, and whether it could be read. -/
  | readLast (ok : Bool)
  /-- The rest of `drain_inbound`. -/
  | deliver

namespace DsSmsTransport

/-- Content number `k` of the slot. -/
def message (s : DsSmsTransport) (k : ℕ) : Option InboundSms := (s.initial :: s.published)[k]?

/-- The messages passed to `on_message`. -/
def delivered (s : DsSmsTransport) : List InboundSms := s.log.map Prod.snd

/-- The end of `drain_inbound`: nothing without a sender or a text, and
nothing that was seen last. -/
def drainInbound (s : DsSmsTransport) (k : ℕ) (sms : InboundSms) : DsSmsTransport :=
  if sms.sender.isEmpty || sms.text.isEmpty then s
  else if sms = s.seen then s
  else { s with seen := sms, log := s.log ++ [(k, sms)] }

/-- One step. -/
def step (s : DsSmsTransport) : DsAct → Option DsSmsTransport
  | .publish sms =>
    some { s with published := s.published ++ [sms], slot := sms, announced := false }
  | .bump =>
    some (if s.watching then { s with events := s.events + 1, announced := true } else s)
  | .baseline ok =>
    -- a baseline that cannot be read leaves the memory empty
    match s.pc with
    | .fresh =>
      some (if ok then
        { s with pc := .baselined, seen := s.slot, baseline := some s.published.length }
      else { s with pc := .baselined })
    | _ => none
  | .watch =>
    match s.pc with
    | .baselined => some { s with pc := .idle, watching := true }
    | _ => none
  | .callback =>
    match s.events with
    | 0 => none
    | events + 1 => some { s with events := events, dirty := true }
  | .wake =>
    match s.pc with
    | .idle => some { s with pc := if s.dirty then .draining else .idle, dirty := false }
    | _ => none
  | .readLast ok =>
    -- the flag is down already: a read that fails is not tried again
    match s.pc with
    | .draining =>
      some { s with pc := if ok then .read s.published.length s.slot else .idle }
    | _ => none
  | .deliver =>
    match s.pc with
    | .read k sms =>
      some { s.drainInbound k sms with pc := .idle, drained := s.drained ++ [k] }
    | _ => none

/-- The transport before `start`, with the slot as it is. -/
def fresh (initial : InboundSms) : DsSmsTransport := { initial := initial }

/-- **What a step can do.** -/
inductive Steps (s : DsSmsTransport) : DsAct → DsSmsTransport → Prop
  | publish (sms : InboundSms) : Steps s (.publish sms)
      { s with published := s.published ++ [sms], slot := sms, announced := false }
  | bump : s.watching = true → Steps s .bump { s with events := s.events + 1, announced := true }
  | unheard : s.watching = false → Steps s .bump s
  | baseline : s.pc = .fresh → Steps s (.baseline true)
      { s with pc := .baselined, seen := s.slot, baseline := some s.published.length }
  | unread : s.pc = .fresh → Steps s (.baseline false) { s with pc := .baselined }
  | watch : s.pc = .baselined → Steps s .watch { s with pc := .idle, watching := true }
  | callback {events : ℕ} : s.events = events + 1 →
      Steps s .callback { s with events := events, dirty := true }
  | wake : s.pc = .idle → Steps s .wake
      { s with pc := if s.dirty then .draining else .idle, dirty := false }
  | readLast (ok : Bool) : s.pc = .draining → Steps s (.readLast ok)
      { s with pc := if ok then .read s.published.length s.slot else .idle }
  | deliver {k : ℕ} {sms : InboundSms} : s.pc = .read k sms → Steps s .deliver
      { s.drainInbound k sms with pc := .idle, drained := s.drained ++ [k] }

theorem steps_of_step {s t : DsSmsTransport} {a : DsAct} (h : s.step a = some t) :
    Steps s a t := by
  cases a with
  | publish sms => exact Option.some.inj h ▸ .publish sms
  | bump =>
    simp only [step] at h
    by_cases hw : s.watching = true
    · rw [if_pos hw] at h
      exact Option.some.inj h ▸ .bump hw
    · rw [if_neg hw] at h
      exact Option.some.inj h ▸ .unheard (by simpa using hw)
  | baseline ok =>
    simp only [step] at h
    split at h
    case h_1 hpc =>
      cases ok with
      | true => exact Option.some.inj h ▸ .baseline hpc
      | false => exact Option.some.inj h ▸ .unread hpc
    case h_2 => cases h
  | watch =>
    simp only [step] at h
    split at h
    case h_1 hpc => exact Option.some.inj h ▸ .watch hpc
    case h_2 => cases h
  | callback =>
    simp only [step] at h
    split at h
    case h_1 => cases h
    case h_2 n hn => exact Option.some.inj h ▸ .callback hn
  | wake =>
    simp only [step] at h
    split at h
    case h_1 hpc => exact Option.some.inj h ▸ .wake hpc
    case h_2 => cases h
  | readLast ok =>
    simp only [step] at h
    split at h
    case h_1 hpc => exact Option.some.inj h ▸ .readLast ok hpc
    case h_2 => cases h
  | deliver =>
    simp only [step] at h
    split at h
    case h_1 k sms hpc => exact Option.some.inj h ▸ .deliver hpc
    case h_2 => cases h

/-! ## What is delivered, and in which order -/

/-- A message that `drain_inbound` passes on. -/
def Sendable (sms : InboundSms) : Prop := sms.sender.isEmpty = false ∧ sms.text.isEmpty = false

instance (sms : InboundSms) : Decidable (Sendable sms) := inferInstanceAs (Decidable (_ ∧ _))

/-- `sms` is what the baseline was read as. -/
def Baselined (s : DsSmsTransport) (sms : InboundSms) : Prop :=
  ∃ b, s.baseline = some b ∧ s.message b = some sms

/-- **The one-tuple memory.** Deliveries go forward through what was
written, and the memory is of the last of them, or of the baseline. -/
structure Ordered (s : DsSmsTransport) : Prop where
  slot : s.message s.published.length = some s.slot
  log : ∀ e ∈ s.log, s.message e.1 = some e.2
  increasing : (s.log.map Prod.fst).Pairwise (· < ·)
  fresh : s.pc = .fresh → s.log = [] ∧ s.drained = []
  read : ∀ k sms, s.pc = .read k sms → s.message k = some sms ∧ ∀ e ∈ s.log, e.1 ≤ k
  seen : (s.log = [] ∧ (s.seen = ⟨[], [], []⟩ ∨ s.Baselined s.seen)) ∨
    ∃ k, s.log.getLast? = some (k, s.seen)
  drained : ∀ k ∈ s.drained, ∃ sms, s.message k = some sms ∧
    (Sendable sms → sms ∈ s.delivered ∨ s.Baselined sms)

theorem ordered_fresh (initial : InboundSms) : Ordered (fresh initial) where
  slot := rfl
  log := by simp [DsSmsTransport.fresh]
  increasing := by simp [DsSmsTransport.fresh]
  fresh := fun _ => ⟨rfl, rfl⟩
  read := by simp [DsSmsTransport.fresh]
  seen := .inl ⟨rfl, .inl rfl⟩
  drained := by simp [DsSmsTransport.fresh]

/-- What was written stays written. -/
theorem message_publish {s : DsSmsTransport} {k : ℕ} {sms new : InboundSms}
    (h : s.message k = some sms) :
    ({ s with published := s.published ++ [new], slot := new, announced := false } :
      DsSmsTransport).message k = some sms := by
  obtain ⟨hlt, -⟩ := List.getElem?_eq_some_iff.1 h
  rw [message, ← List.cons_append, List.getElem?_append_left hlt]
  exact h

/-- The number of a content is at most the number of the slot's. -/
theorem le_of_message {s : DsSmsTransport} {k : ℕ} {sms : InboundSms}
    (h : s.message k = some sms) : k ≤ s.published.length := by
  obtain ⟨hlt, -⟩ := List.getElem?_eq_some_iff.1 h
  simp only [List.length_cons] at hlt
  omega

/-- **What the end of a drain can do.** Nothing, because the message
cannot be passed on or was seen last; or it is delivered and seen. -/
theorem drainInbound_cases (s : DsSmsTransport) (k : ℕ) (sms : InboundSms) :
    (¬ Sendable sms ∧ s.drainInbound k sms = s) ∨
      (sms = s.seen ∧ s.drainInbound k sms = s) ∨
      (Sendable sms ∧ sms ≠ s.seen ∧
        s.drainInbound k sms = { s with seen := sms, log := s.log ++ [(k, sms)] }) := by
  unfold drainInbound
  by_cases he : (sms.sender.isEmpty || sms.text.isEmpty) = true
  · refine .inl ⟨fun hs => ?_, if_pos he⟩
    rw [hs.1, hs.2] at he
    cases he
  · have hs : Sendable sms := by simpa [Sendable] using he
    by_cases hseen : sms = s.seen
    · exact .inr (.inl ⟨hseen, by rw [if_neg he, if_pos hseen]⟩)
    · exact .inr (.inr ⟨hs, hseen, by rw [if_neg he, if_neg hseen]⟩)

/-- The end of a drain writes to the memory and the log only. -/
theorem drainInbound_frame (s : DsSmsTransport) (k : ℕ) (sms : InboundSms) :
    ∃ seen log, s.drainInbound k sms = { s with seen := seen, log := log } := by
  rcases s.drainInbound_cases k sms with ⟨-, heq⟩ | ⟨-, heq⟩ | ⟨-, -, heq⟩
  · exact ⟨_, _, heq⟩
  · exact ⟨_, _, heq⟩
  · exact ⟨_, _, heq⟩

/-- A message that was seen last has been delivered, or was there at the
baseline. -/
theorem Ordered.of_seen {s : DsSmsTransport} (hs : Ordered s) (hsend : Sendable s.seen) :
    s.seen ∈ s.delivered ∨ s.Baselined s.seen := by
  rcases hs.seen with ⟨-, hseen | hseen⟩ | ⟨k, hk⟩
  · rw [hseen] at hsend
    exact absurd hsend.1 (by simp)
  · exact .inr hseen
  · exact .inl (List.mem_map.2 ⟨_, List.mem_of_getLast? hk, rfl⟩)

/-- The last delivery has the largest number. -/
theorem Ordered.le_last {s : DsSmsTransport} (hs : Ordered s) {last : ℕ × InboundSms}
    (hl : s.log.getLast? = some last) (e : ℕ × InboundSms) (he : e ∈ s.log) : e.1 ≤ last.1 := by
  obtain ⟨log, hlog⟩ := List.getLast?_eq_some_iff.1 hl
  have hinc := hs.increasing
  rw [hlog] at he hinc
  rw [List.map_append, List.pairwise_append] at hinc
  rcases List.mem_append.1 he with he | he
  · exact le_of_lt (hinc.2.2 e.1 (List.mem_map_of_mem he) last.1 (by simp))
  · rw [List.mem_singleton.1 he]

/-- The end of a drain keeps the order. -/
theorem Ordered.deliver {s : DsSmsTransport} {k : ℕ} {sms : InboundSms} (hs : Ordered s)
    (hpc : s.pc = .read k sms) :
    Ordered { s.drainInbound k sms with pc := .idle, drained := s.drained ++ [k] } := by
  obtain ⟨hmsg, hle⟩ := hs.read k sms hpc
  rcases s.drainInbound_cases k sms with ⟨hsend, heq⟩ | ⟨hseen, heq⟩ | ⟨hsend, hne, heq⟩
  all_goals rw [heq]
  · refine ⟨hs.slot, hs.log, hs.increasing, by simp, by simp, hs.seen, ?_⟩
    intro j hj
    rcases List.mem_append.1 hj with hj | hj
    · exact hs.drained j hj
    · rw [List.mem_singleton.1 hj]
      exact ⟨sms, hmsg, fun h => absurd h hsend⟩
  · refine ⟨hs.slot, hs.log, hs.increasing, by simp, by simp, hs.seen, ?_⟩
    intro j hj
    rcases List.mem_append.1 hj with hj | hj
    · exact hs.drained j hj
    · rw [List.mem_singleton.1 hj]
      exact ⟨sms, hmsg, fun h => hseen ▸ hs.of_seen (hseen ▸ h)⟩
  · -- what is seen last is not at the end of the log, so the number is new
    have hlt : ∀ e ∈ s.log, e.1 < k := by
      intro e he
      rcases hs.seen with ⟨hnil, -⟩ | ⟨j, hj⟩
      · simp [hnil] at he
      · have hjmem := List.mem_of_getLast? hj
        have hjk : j ≠ k := by
          rintro rfl
          exact hne (Option.some.inj (hmsg.symm.trans (hs.log _ hjmem)))
        have hej := hs.le_last hj e he
        have := hle _ hjmem
        simp only at hej this
        omega
    refine ⟨hs.slot, ?_, ?_, by simp, by simp, .inr ⟨k, by simp⟩, ?_⟩
    · intro e he
      rcases List.mem_append.1 he with he | he
      · exact hs.log e he
      · rw [List.mem_singleton.1 he]
        exact hmsg
    · rw [List.map_append, List.pairwise_append]
      refine ⟨hs.increasing, by simp, ?_⟩
      intro i hi j hj
      obtain ⟨e, he, rfl⟩ := List.mem_map.1 hi
      simp only [List.map_cons, List.map_nil, List.mem_singleton] at hj
      rw [hj]
      exact hlt e he
    · intro j hj
      have hdel : ∀ m, m ∈ s.delivered ∨ m = sms →
          m ∈ DsSmsTransport.delivered { s with seen := sms, log := s.log ++ [(k, sms)] } := by
        intro m hm
        simpa [delivered] using hm
      rcases List.mem_append.1 hj with hj | hj
      · obtain ⟨m, hm, hdone⟩ := hs.drained j hj
        exact ⟨m, hm, fun h => (hdone h).imp_left fun h' => hdel m (.inl h')⟩
      · rw [List.mem_singleton.1 hj]
        exact ⟨sms, hmsg, fun _ => .inl (hdel sms (.inr rfl))⟩

/-- **Every step keeps the order.** -/
theorem Ordered.step {s t : DsSmsTransport} {a : DsAct} (hs : Ordered s)
    (h : s.step a = some t) : Ordered t := by
  cases steps_of_step h with
  | publish sms =>
    have hbase : ∀ m, s.Baselined m → Baselined
        { s with published := s.published ++ [sms], slot := sms, announced := false } m :=
      fun m ⟨b, hb, hm⟩ => ⟨b, hb, message_publish hm⟩
    refine ⟨by simp [message], fun e he => message_publish (hs.log e he), hs.increasing, hs.fresh,
      fun k m hpc => ⟨message_publish (hs.read k m hpc).1, (hs.read k m hpc).2⟩, ?_, ?_⟩
    · exact hs.seen.imp_left fun ⟨hnil, h⟩ => ⟨hnil, h.imp_right (hbase _)⟩
    · intro k hk
      obtain ⟨m, hm, hdone⟩ := hs.drained k hk
      exact ⟨m, message_publish hm, fun h => (hdone h).imp_right (hbase m)⟩
  | bump hw => exact { hs with }
  | unheard hw => exact hs
  | baseline hpc =>
    obtain ⟨hnil, hdrained⟩ := hs.fresh hpc
    refine ⟨hs.slot, hs.log, hs.increasing, by simp, by simp, ?_, ?_⟩
    · exact .inl ⟨hnil, .inr ⟨_, rfl, hs.slot⟩⟩
    · simp [hdrained]
  | unread hpc => exact { hs with fresh := by simp, read := by simp }
  | watch hpc => exact { hs with fresh := by simp, read := by simp }
  | callback hn => exact { hs with }
  | wake hpc =>
    refine { hs with fresh := ?_, read := ?_ }
    · cases s.dirty <;> simp
    · cases s.dirty <;> simp
  | readLast ok hpc =>
    refine { hs with fresh := by cases ok <;> simp, read := ?_ }
    cases ok with
    | false => simp
    | true =>
      intro k sms hk
      simp only [if_true, ReactorPc.read.injEq] at hk
      obtain ⟨rfl, rfl⟩ := hk
      exact ⟨hs.slot, fun e he => le_of_message (hs.log e he)⟩
  | deliver hpc => exact hs.deliver hpc

/-- No step touches what the slot held at first. -/
theorem initial_step {s t : DsSmsTransport} {a : DsAct} (h : s.step a = some t) :
    t.initial = s.initial := by
  cases steps_of_step h with
  | @deliver k sms hpc =>
    obtain ⟨seen, log, heq⟩ := s.drainInbound_frame k sms
    rw [heq]
  | _ => rfl

theorem initial_of_exec {initial : InboundSms} {as : List DsAct} {s : DsSmsTransport}
    (h : exec step (fresh initial) as = some s) : s.initial = initial :=
  exec_invariant (I := fun s => s.initial = initial)
    (fun _ _ _ hI hs => (initial_step hs).trans hI) rfl h

/-- **Deliveries follow the publications.** Whatever is read, bumped or
woken, and whichever reads fail, what was passed to `on_message` is a part,
in order, of what the slot held at first and has been given since: each
delivery is of one content of the slot, by its number, and no number comes
twice. -/
theorem delivered_sublist {initial : InboundSms} {as : List DsAct} {s : DsSmsTransport}
    (h : exec step (fresh initial) as = some s) :
    s.delivered.Sublist (initial :: s.published) ∧
      (∀ e ∈ s.log, (initial :: s.published)[e.1]? = some e.2) ∧
      (s.log.map Prod.fst).Pairwise (· < ·) := by
  have hs : Ordered s := exec_invariant (fun _ _ _ hs hst => hs.step hst) (ordered_fresh initial) h
  have hget : ∀ e ∈ s.log, (initial :: s.published)[e.1]? = some e.2 := by
    rw [← initial_of_exec h]
    exact hs.log
  exact ⟨sublist_of_numbered hget hs.increasing, hget, hs.increasing⟩

/-- A message is announced twice, and published again after another. -/
def repeated : List DsAct :=
  [.baseline true, .watch,
    .publish ⟨"+1".toList, "STATUS".toList, "1".toList⟩, .bump, .callback, .wake,
    .readLast true, .deliver, .bump, .callback, .wake, .readLast true, .deliver,
    .publish ⟨"+1".toList, "REBOOT".toList, "1".toList⟩, .bump, .callback, .wake,
    .readLast false, .bump, .callback, .wake, .readLast true, .deliver,
    .publish ⟨"+1".toList, "STATUS".toList, "1".toList⟩, .bump, .callback, .wake,
    .readLast true, .deliver]

theorem delivered_sublist_repeated :
    ∃ s, exec step (fresh ⟨[], [], []⟩) repeated = some s ∧ s.log.map Prod.fst = [1, 2, 3] ∧
      s.delivered.Sublist (⟨[], [], []⟩ :: s.published) ∧
      (∀ e ∈ s.log, (⟨[], [], []⟩ :: s.published)[e.1]? = some e.2) ∧
      (s.log.map Prod.fst).Pairwise (· < ·) := by
  have hrun : (exec step (fresh ⟨[], [], []⟩) repeated).any (fun s =>
      decide (s.log.map Prod.fst = [1, 2, 3])) = true := by decide +kernel
  obtain ⟨s, hs, hlog⟩ := (Option.any_eq_true _ _).1 hrun
  exact ⟨s, hs, of_decide_eq_true hlog, delivered_sublist hs⟩

/-! ## What is not lost -/

/-- The step's read, if it is one, succeeds. -/
def ReadsOk (_ : DsSmsTransport) : DsAct → Prop
  | .baseline ok => ok = true
  | .readLast ok => ok = true
  | _ => True

instance (s : DsSmsTransport) (a : DsAct) : Decidable (ReadsOk s a) := by
  unfold ReadsOk
  split <;> infer_instance

/-- **Nothing is under way**: no event queued, the flag down and the
reactor between wake-ups. -/
def Quiescent (s : DsSmsTransport) : Prop := s.events = 0 ∧ s.dirty = false ∧ s.pc = .idle

instance (s : DsSmsTransport) : Decidable s.Quiescent := inferInstanceAs (Decidable (_ ∧ _ ∧ _))

/-- The slot's content is on its way to a drain, or a drain has read it. -/
def Coming (s : DsSmsTransport) : Prop :=
  0 < s.events ∨ s.dirty = true ∨ s.pc = .draining ∨
    (∃ sms, s.pc = .read s.published.length sms) ∨ s.published.length ∈ s.drained

/-- **An announced message is not forgotten.** -/
theorem coming_step {s t : DsSmsTransport} {a : DsAct} (hs : s.announced = true → s.Coming)
    (ha : ReadsOk s a) (h : s.step a = some t) : t.announced = true → t.Coming := by
  cases steps_of_step h with
  | publish sms =>
    -- a new content is not announced yet, and the old one is gone
    simp
  | bump hw => exact fun _ => .inl (Nat.succ_pos _)
  | unheard hw => exact hs
  | baseline hpc =>
    intro hann
    have := hs hann
    simpa [Coming, hpc] using this
  | unread hpc => cases ha
  | watch hpc =>
    intro hann
    have := hs hann
    simpa [Coming, hpc] using this
  | callback hn => exact fun _ => .inr (.inl rfl)
  | wake hpc =>
    intro hann
    have := hs hann
    cases hd : s.dirty with
    | false => simpa [Coming, hpc, hd] using this
    | true => exact .inr (.inr (.inl rfl))
  | readLast ok hpc =>
    have hok : ok = true := ha
    subst hok
    exact fun _ => .inr (.inr (.inr (.inl ⟨s.slot, rfl⟩)))
  | @deliver k sms hpc =>
    obtain ⟨seen, log, heq⟩ := s.drainInbound_frame k sms
    rw [heq]
    intro hann
    rcases hs hann with he | hd | hp | ⟨m, hp⟩ | hp
    · exact .inl he
    · exact .inr (.inl hd)
    · exact absurd (hpc.symm.trans hp) (by simp)
    · have hk : k = s.published.length := (ReactorPc.read.inj (hpc.symm.trans hp)).1
      exact .inr (.inr (.inr (.inr (by simp [hk]))))
    · exact .inr (.inr (.inr (.inr (List.mem_append_left _ hp))))

/-- The message is unlike any other that was written. -/
def Distinct (s : DsSmsTransport) (k : ℕ) : Prop :=
  ∀ j ∈ List.range (s.published.length + 1), s.message j = s.message k → j = k

instance (s : DsSmsTransport) (k : ℕ) : Decidable (s.Distinct k) :=
  inferInstanceAs (Decidable (∀ j ∈ List.range _, _))

/-- A message unlike any other is delivered at most once. -/
theorem Ordered.count_delivered_le_one {s : DsSmsTransport} (hs : Ordered s) {k : ℕ}
    {sms : InboundSms} (hk : s.message k = some sms) (hd : s.Distinct k) :
    s.delivered.count sms ≤ 1 := by
  have hnodup : (s.log.map Prod.fst).Nodup := hs.increasing.imp fun h => Nat.ne_of_lt h
  calc s.delivered.count sms
      = s.log.countP (fun e => e.2 == sms) := by rw [delivered, List.count, List.countP_map]; rfl
    _ ≤ s.log.countP (fun e => e.1 == k) := by
      refine List.countP_mono_left fun e he heq => ?_
      have hmsg := hs.log e he
      rw [eq_of_beq heq] at hmsg
      have hlt : e.1 < s.published.length + 1 := Nat.lt_succ_of_le (le_of_message hmsg)
      rw [hd e.1 (List.mem_range.2 hlt) (hmsg.trans hk.symm)]
      exact beq_self_eq_true k
    _ = (s.log.map Prod.fst).count k := by rw [List.count, List.countP_map]; rfl
    _ ≤ 1 := List.nodup_iff_count_le_one.1 hnodup k

/-- **What is not overwritten is delivered.** Where every read succeeds
and nothing is under way, a message written after the baseline, unlike any
other, has been delivered at most once; and once, if a drain read it or it
is still in the slot and was announced to the watch. -/
theorem delivered_of_quiescent {initial : InboundSms} {as : List DsAct} {s : DsSmsTransport}
    (hok : Along step ReadsOk (fresh initial) as) (h : exec step (fresh initial) as = some s)
    (hq : s.Quiescent) {b k : ℕ} {sms : InboundSms} (hb : s.baseline = some b) (hbk : b < k)
    (hk : s.message k = some sms) (hsend : Sendable sms) (hd : s.Distinct k) :
    s.delivered.count sms ≤ 1 ∧
      (k ∈ s.drained ∨ (k = s.published.length ∧ s.announced = true) →
        s.delivered.count sms = 1) := by
  have hs : Ordered s := exec_invariant (fun _ _ _ hs hst => hs.step hst) (ordered_fresh initial) h
  have hann : s.announced = true → s.Coming :=
    exec_invariant_along (fun _ _ _ hs ha hst => coming_step hs ha hst)
      (by simp [DsSmsTransport.fresh]) hok h
  have hle := hs.count_delivered_le_one hk hd
  refine ⟨hle, fun hread => ?_⟩
  have hdrained : k ∈ s.drained := by
    rcases hread with hread | ⟨rfl, ha⟩
    · exact hread
    · obtain ⟨hevents, hdirty, hpc⟩ := hq
      simpa [Coming, hevents, hdirty, hpc] using hann ha
  obtain ⟨m, hm, hdone⟩ := hs.drained k hdrained
  have : m = sms := Option.some.inj (hm.symm.trans hk)
  subst this
  rcases hdone hsend with hmem | ⟨b', hb', hm'⟩
  · have := List.count_pos_iff.2 hmem
    omega
  · -- the baseline is another message
    have hbb : b' = b := Option.some.inj (hb'.symm.trans hb)
    subst hbb
    have hlt : b' < s.published.length + 1 := Nat.lt_succ_of_le (le_of_message hm')
    have := hd b' (List.mem_range.2 hlt) (hm'.trans hk.symm)
    omega

/-- Two messages, each announced and drained before the next. -/
def twoDrains : List DsAct :=
  [.baseline true, .watch,
    .publish ⟨"+1".toList, "STATUS".toList, "1".toList⟩, .bump, .callback, .wake,
    .readLast true, .deliver,
    .publish ⟨"+1".toList, "STATUS".toList, "2".toList⟩, .bump, .callback, .wake,
    .readLast true, .deliver]

theorem delivered_twoDrains :
    Along step ReadsOk (fresh ⟨[], [], []⟩) twoDrains ∧
      ∃ s, exec step (fresh ⟨[], [], []⟩) twoDrains = some s ∧ s.Quiescent ∧
        s.baseline = some 0 ∧ s.Distinct 1 ∧ 1 ∈ s.drained ∧
        s.delivered.count ⟨"+1".toList, "STATUS".toList, "1".toList⟩ = 1 := by
  have hok : Along step ReadsOk (fresh ⟨[], [], []⟩) twoDrains := by decide
  refine ⟨hok, _, rfl, by decide, rfl, by decide, by decide, ?_⟩
  exact (delivered_of_quiescent hok rfl (by decide) (b := 0) (k := 1) rfl (by decide) rfl
    (by decide) (by decide)).2 (.inl (by decide))

/-- **A message is overwritten before it is drained.** Two are published
before the reactor wakes, and the first is never delivered. -/
theorem not_delivered_overwritten :
    ¬ ∀ (initial : InboundSms) (as : List DsAct) (s : DsSmsTransport),
      Along step ReadsOk (fresh initial) as → exec step (fresh initial) as = some s →
      s.Quiescent → ∀ (b k : ℕ) (sms : InboundSms), s.baseline = some b → b < k →
      s.message k = some sms → Sendable sms → s.Distinct k → s.delivered.count sms = 1 := by
  intro h
  have hcount := h ⟨[], [], []⟩
    [.baseline true, .watch,
      .publish ⟨"+1".toList, "STATUS".toList, "1".toList⟩, .bump,
      .publish ⟨"+1".toList, "REBOOT".toList, "2".toList⟩, .bump,
      .callback, .callback, .wake, .readLast true, .deliver] _ (by decide) rfl (by decide)
    0 1 ⟨"+1".toList, "STATUS".toList, "1".toList⟩ rfl (by decide) rfl (by decide) (by decide)
  exact absurd hcount (by decide)

end DsSmsTransport

end ZeroTouch
