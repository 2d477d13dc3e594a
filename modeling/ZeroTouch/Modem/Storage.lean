import ZeroTouch.Common.Lists
import ZeroTouch.Common.Run
import ZeroTouch.Modem.Drain
import ZeroTouch.Transport
/-!
# The standalone appliance and its SMS storage

`AtModem` over the modem's storage, as a system of steps: messages
arrive, the process is started, polls, hands messages over one by one,
deletes them one by one afterwards, and may stop anywhere. `start()`
registers the callback before it opens the port and drains, so the first
drain delivers like any other.

Nothing is remembered of what was handed over except that it is deleted.
So a complete message that is stored when the process starts is executed
(`silent_iff`), and one is executed again where a deletion fails or the
process stops before it (`delivered_once_of_settled` is what holds
otherwise).
-/

namespace ZeroTouch

/-- Where the process is. -/
inductive Proc
  /-- Not running. -/
  | down
  /-- The port did not open: `start` returned before it set the timer. -/
  | deaf
  /-- Between drains. -/
  | idle
  /-- In the loop of `drain_sms`. -/
  | draining (todo : List Part) (toDelete : List Int)
  /-- In the deletions after it. -/
  | deleting (toDelete : List Int)

/-- The slots handed over and not yet deleted. -/
def Proc.pending : Proc → List Int
  | .draining _ toDelete => toDelete
  | .deleting toDelete => toDelete
  | _ => []

/-- What is left to hand over. -/
def Proc.todo : Proc → List Part
  | .draining todo _ => todo
  | _ => []

/-- A message passed to the callback, with the parts it was made of. -/
structure Delivery where
  sms : InboundSms
  parts : List Part

/-- The modem's storage at a given time: no two messages in one slot. -/
structure Storage where
  entries : List StoredSms
  ids_nodup : (entries.map StoredSms.id).Nodup
  slots_nodup : (entries.map StoredSms.index).Nodup

/-- The messages of a storage. -/
def Storage.ids (S : Storage) : List ℕ := S.entries.map StoredSms.id

section Appliance

variable (R : SmsReassembler) (decode : Text → Option SmsMessage)

/-- The appliance. `arrived` is every message that has ever been in the
storage, and `handed` those handed over so far. -/
structure Appliance where
  storage : List StoredSms
  arrived : List StoredSms
  proc : Proc := .down
  registered : Bool := false
  reasm : R.State := R.init
  log : List Delivery := []
  handed : List Part := []

/-- A step of the appliance or of its surroundings. -/
inductive ApplianceAct
  /-- The modem stores a message. -/
  | arrive (e : StoredSms)
  /-- `Bridge::start`. -/
  | start (opened : Bool)
  /-- `AT+CMGL=4` at the head of `drain_sms`: not `OK`, or a listing. -/
  | poll (listed : Option (List StoredSms))
  /-- One round of the loop that hands a message over. -/
  | handOver
  | endLoop
  /-- `AT+CMGD` of one slot, and whether the modem deleted it. -/
  | delete (deleted : Bool)
  | endDelete
  /-- The process stops, wherever it is. -/
  | stop

namespace Appliance

variable {R}

/-- `if (complete && m_on_sms) m_on_sms(…)`. -/
def deliver (s : Appliance R) (full : SmsMessage) (used : List Part) : Appliance R :=
  if s.registered then
    { s with log := s.log ++ [⟨⟨full.sender, full.text, full.scts⟩, used⟩] }
  else s

/-- The body of the loop for a decoded message: complete by itself, or
given to the reassembler. -/
def handOver (s : Appliance R) (p : Part) : Appliance R :=
  if p.2.total = 0 then s.deliver p.2 [p]
  else
    match R.add s.reasm p with
    | (r, none) => { s with reasm := r }
    | (r, some (full, used)) => { s with reasm := r }.deliver full used

/-- One step. A listing can be of any messages that have been in the
storage at some time. -/
def step (s : Appliance R) : ApplianceAct → Option (Appliance R)
  | .arrive e =>
    if e.id ∉ s.arrived.map StoredSms.id ∧ e.index ∉ s.storage.map StoredSms.index then
      some { s with storage := s.storage ++ [e], arrived := s.arrived ++ [e] }
    else none
  | .start opened =>
    match s.proc with
    | .down => some { s with registered := true, proc := if opened then .idle else .deaf }
    | _ => none
  | .poll listed =>
    match s.proc, listed with
    | .idle, none => some s
    | .idle, some es =>
      if ∀ e ∈ es, e ∈ s.arrived then some { s with proc := .draining (parts decode es) [] }
      else none
    | _, _ => none
  | .handOver =>
    match s.proc with
    | .draining (p :: todo) toDelete =>
      some { s.handOver p with
        proc := .draining todo (toDelete ++ [p.2.index]), handed := s.handed ++ [p] }
    | _ => none
  | .endLoop =>
    match s.proc with
    | .draining [] toDelete => some { s with proc := .deleting toDelete }
    | _ => none
  | .delete deleted =>
    match s.proc with
    | .deleting (i :: toDelete) =>
      some { s with
        storage := if deleted then s.storage.filter (fun e => decide (e.index ≠ i)) else s.storage
        proc := .deleting toDelete }
    | _ => none
  | .endDelete =>
    match s.proc with
    | .deleting [] => some { s with proc := .idle }
    | _ => none
  | .stop => some { s with proc := .down, registered := false, reasm := R.init }

/-- The appliance before it is started, with its storage as it is. -/
def off (S : Storage) : Appliance R := { storage := S.entries, arrived := S.entries }

/-! ## What a step can do -/

variable {decode}

/-- **What a step can do.** -/
inductive Steps (decode : Text → Option SmsMessage) (s : Appliance R) :
    ApplianceAct → Appliance R → Prop
  | arrive {e : StoredSms} : e.id ∉ s.arrived.map StoredSms.id →
      e.index ∉ s.storage.map StoredSms.index →
      Steps decode s (.arrive e) { s with storage := s.storage ++ [e], arrived := s.arrived ++ [e] }
  | start {opened : Bool} : s.proc = .down →
      Steps decode s (.start opened)
        { s with registered := true, proc := if opened then .idle else .deaf }
  | pollFailed : s.proc = .idle → Steps decode s (.poll none) s
  | poll {es : List StoredSms} : s.proc = .idle → (∀ e ∈ es, e ∈ s.arrived) →
      Steps decode s (.poll (some es)) { s with proc := .draining (parts decode es) [] }
  | handOver {p : Part} {todo : List Part} {toDelete : List Int} :
      s.proc = .draining (p :: todo) toDelete →
      Steps decode s .handOver { s.handOver p with
        proc := .draining todo (toDelete ++ [p.2.index]), handed := s.handed ++ [p] }
  | endLoop {toDelete : List Int} : s.proc = .draining [] toDelete →
      Steps decode s .endLoop { s with proc := .deleting toDelete }
  | delete {deleted : Bool} {i : Int} {toDelete : List Int} :
      s.proc = .deleting (i :: toDelete) →
      Steps decode s (.delete deleted) { s with
        storage := if deleted then s.storage.filter (fun e => decide (e.index ≠ i)) else s.storage
        proc := .deleting toDelete }
  | endDelete : s.proc = .deleting [] → Steps decode s .endDelete { s with proc := .idle }
  | stop : Steps decode s .stop { s with proc := .down, registered := false, reasm := R.init }

theorem steps_of_step {s t : Appliance R} {a : ApplianceAct} (h : s.step decode a = some t) :
    Steps decode s a t := by
  cases a with
  | arrive e =>
    simp only [step] at h
    split at h
    · rename_i hg
      exact Option.some.inj h ▸ .arrive hg.1 hg.2
    · cases h
  | start opened =>
    simp only [step] at h
    split at h
    · rename_i hp
      exact Option.some.inj h ▸ .start hp
    · cases h
  | poll listed =>
    simp only [step] at h
    split at h
    · rename_i hp
      exact Option.some.inj h ▸ .pollFailed hp
    · rename_i hp
      split at h
      · rename_i hg
        exact Option.some.inj h ▸ .poll hp hg
      · cases h
    · cases h
  | handOver =>
    simp only [step] at h
    split at h
    · rename_i hp
      exact Option.some.inj h ▸ .handOver hp
    · cases h
  | endLoop =>
    simp only [step] at h
    split at h
    · rename_i hp
      exact Option.some.inj h ▸ .endLoop hp
    · cases h
  | delete deleted =>
    simp only [step] at h
    split at h
    · rename_i hp
      exact Option.some.inj h ▸ .delete hp
    · cases h
  | endDelete =>
    simp only [step] at h
    split at h
    · rename_i hp
      exact Option.some.inj h ▸ .endDelete hp
    · cases h
  | stop => exact Option.some.inj h ▸ .stop

/-- A delivery writes to the log only, and only where a callback is
registered. -/
theorem deliver_cases (s : Appliance R) (full : SmsMessage) (used : List Part) :
    ∃ added, s.deliver full used = { s with log := s.log ++ added } ∧
      (s.registered = true → added ≠ []) ∧
      (added = [] ∨ ∃ sms, added = [⟨sms, used⟩]) := by
  unfold deliver
  by_cases h : s.registered = true
  · exact ⟨_, if_pos h, by simp, .inr ⟨_, rfl⟩⟩
  · exact ⟨[], by rw [if_neg h, List.append_nil], fun h' => absurd h' h, .inl rfl⟩

/-- **What handing over a part can do.** The log grows by whole messages,
the reassembler changes, and nothing else does; what is delivered and what
is held after are parts that were held, or this one, none of them twice. -/
theorem handOver_spec (s : Appliance R) (p : Part) :
    ∃ added r, s.handOver p = { s with reasm := r, log := s.log ++ added } ∧
      (added.flatMap Delivery.parts ++ R.held r).Subperm (p :: R.held s.reasm) ∧
      (∀ d ∈ added, Whole d.parts) ∧
      (s.registered = true → added = [] →
        p.2.total ≠ 0 ∧ ¬ Covers p.2 (p :: R.held s.reasm) ∧
          Keeps (p :: R.held s.reasm) (R.held r)) := by
  unfold handOver
  by_cases h : p.2.total = 0
  · obtain ⟨added, hd, hne, hadded⟩ := s.deliver_cases p.2 [p]
    refine ⟨added, s.reasm, by rw [if_pos h, hd], ?_, ?_, fun hr ha => absurd ha (hne hr)⟩
    · rcases hadded with rfl | ⟨sms, rfl⟩
      · exact List.Subperm.cons_self
      · exact List.Subperm.refl _
    · rcases hadded with rfl | ⟨sms, rfl⟩
      · simp
      · intro d hd
        rw [List.mem_singleton.1 hd]
        exact ⟨p, List.mem_singleton_self p, .inl h⟩
  · rcases hadd : R.add s.reasm p with ⟨r, _ | ⟨full, used⟩⟩
    · obtain ⟨hsub, hkeeps⟩ := R.add_none _ _ _ hadd
      refine ⟨[], r, by simp [h], by simpa using hsub, by simp, fun _ _ => ⟨h, ?_, hkeeps⟩⟩
      intro hc
      exact R.add_complete _ _ hc (by rw [hadd])
    · obtain ⟨hsub, hmem, hcov⟩ := R.add_some _ _ _ _ _ hadd
      obtain ⟨added, hd, hne, hadded⟩ :=
        ({ s with reasm := r } : Appliance R).deliver_cases full used
      refine ⟨added, r, by simp [h, hd], ?_, ?_, fun hr ha => absurd ha (hne hr)⟩
      · rcases hadded with rfl | ⟨sms, rfl⟩
        · exact (List.sublist_append_right _ _).subperm.trans hsub
        · simpa using hsub
      · rcases hadded with rfl | ⟨sms, rfl⟩
        · simp
        · intro d hd
          rw [List.mem_singleton.1 hd]
          exact ⟨p, hmem, .inr hcov⟩

/-! ## What is delivered has been in the storage -/

theorem mem_parts {es : List StoredSms} {p : Part} :
    p ∈ parts decode es ↔ ∃ e ∈ es, e.part decode = some p := List.mem_filterMap

theorem parts_mono {es es' : List StoredSms} (h : ∀ e ∈ es, e ∈ es') {p : Part}
    (hp : p ∈ parts decode es) : p ∈ parts decode es' := by
  obtain ⟨e, he, hep⟩ := mem_parts.1 hp
  exact mem_parts.2 ⟨e, h e he, hep⟩

theorem id_of_part {e : StoredSms} {p : Part} (h : e.part decode = some p) :
    p.1 = e.id ∧ p.2.index = e.index := by
  obtain ⟨m, -, rfl⟩ := Option.map_eq_some_iff.1 h
  exact ⟨rfl, rfl⟩

/-- Everything the process holds, has yet to hand over or has delivered
was decoded from a message that has been in the storage, and what it has
delivered is whole. -/
structure Sourced (decode : Text → Option SmsMessage) (s : Appliance R) : Prop where
  ids_nodup : (s.arrived.map StoredSms.id).Nodup
  todo : ∀ p ∈ s.proc.todo, p ∈ parts decode s.arrived
  held : ∀ p ∈ R.held s.reasm, p ∈ parts decode s.arrived
  log : ∀ d ∈ s.log, Whole d.parts ∧ ∀ p ∈ d.parts, p ∈ parts decode s.arrived

theorem sourced_off (S : Storage) : Sourced decode (off S : Appliance R) where
  ids_nodup := S.ids_nodup
  todo := by simp [off, Proc.todo]
  held := by simp [off, R.held_init]
  log := by simp [off]

/-- **Nothing is delivered that was not stored.** -/
theorem Sourced.step {s t : Appliance R} {a : ApplianceAct} (hs : Sourced decode s)
    (h : s.step decode a = some t) : Sourced decode t := by
  obtain ⟨hids, htodo, hheld, hlog⟩ := hs
  cases steps_of_step h with
  | @arrive e hid hslot =>
    have hmono : ∀ p, p ∈ parts decode s.arrived → p ∈ parts decode (s.arrived ++ [e]) :=
      fun p hp => parts_mono (fun e' he' => List.mem_append_left _ he') hp
    refine ⟨?_, fun p hp => hmono p (htodo p hp), fun p hp => hmono p (hheld p hp),
      fun d hd => ⟨(hlog d hd).1, fun p hp => hmono p ((hlog d hd).2 p hp)⟩⟩
    exact nodup_map_snoc hids hid
  | @start opened hp =>
    refine ⟨hids, ?_, hheld, hlog⟩
    cases opened <;> simp [Proc.todo]
  | pollFailed hp => exact ⟨hids, htodo, hheld, hlog⟩
  | @poll es hp hes => exact ⟨hids, fun p hp => parts_mono hes hp, hheld, hlog⟩
  | @handOver p todo toDelete hp =>
    rw [hp] at htodo
    have hpa : p ∈ parts decode s.arrived := htodo p (by simp [Proc.todo])
    obtain ⟨added, r, heq, hsub, hwhole, -⟩ := s.handOver_spec p
    have hfrom : ∀ q ∈ added.flatMap Delivery.parts ++ R.held r, q ∈ parts decode s.arrived := by
      intro q hq
      rcases List.mem_cons.1 (hsub.subset hq) with rfl | hq
      · exact hpa
      · exact hheld q hq
    rw [heq]
    refine ⟨hids, fun q hq => htodo q (List.mem_cons_of_mem p hq),
      fun q hq => hfrom q (List.mem_append_right _ hq), fun d hd => ?_⟩
    rcases List.mem_append.1 hd with hd | hd
    · exact hlog d hd
    · exact ⟨hwhole d hd, fun q hq => hfrom q
        (List.mem_append_left _ (List.mem_flatMap.2 ⟨d, hd, hq⟩))⟩
  | endLoop hp => exact ⟨hids, by simp [Proc.todo], hheld, hlog⟩
  | delete hp => exact ⟨hids, by simp [Proc.todo], hheld, hlog⟩
  | endDelete hp => exact ⟨hids, by simp [Proc.todo], hheld, hlog⟩
  | stop => exact ⟨hids, by simp [Proc.todo], by simp [R.held_init], hlog⟩

theorem sourced_of_exec {S : Storage} {as : List ApplianceAct} {t : Appliance R}
    (h : exec (step decode) (off S) as = some t) : Sourced decode t :=
  exec_invariant (fun _ _ _ hs hst => hs.step hst) (sourced_off S) h

/-! ## Starting with messages in the storage -/

/-- **A drain that comes to a whole message delivers.** Where the part at
the head does not complete one, what it lacks is further on, and so is a
part that completes it. -/
theorem exists_delivery (ps : List Part) (s : Appliance R) (toDelete : List Int)
    (hproc : s.proc = .draining ps toDelete) (hreg : s.registered = true)
    (hps : ∃ x ∈ ps, x.2.total = 0 ∨ Covers x.2 (ps ++ R.held s.reasm)) :
    ∃ n t, exec (step decode) s (List.replicate n .handOver) = some t ∧ t.log ≠ [] ∧
      t.arrived = s.arrived := by
  induction ps generalizing s toDelete with
  | nil => simp at hps
  | cons p ps ih =>
    obtain ⟨added, r, heq, -, -, hnone⟩ := s.handOver_spec p
    set s' : Appliance R := { s.handOver p with
      proc := .draining ps (toDelete ++ [p.2.index]), handed := s.handed ++ [p] } with hs'
    have hstep : s.step decode .handOver = some s' := by simp [step, hproc, hs']
    by_cases hadd : added = []
    · obtain ⟨htotal, hcov, hkeeps⟩ := hnone hreg hadd
      have hheld : Keeps (p :: ps ++ R.held s.reasm) (ps ++ R.held s'.reasm) := by
        have hr : s'.reasm = r := by rw [hs']; simp [heq]
        intro q hq
        by_cases hqps : q ∈ ps
        · exact ⟨q, List.mem_append_left _ hqps, ⟨rfl, rfl, rfl⟩, rfl⟩
        · obtain ⟨q', hq', hsame⟩ := hkeeps q (by
            simp only [List.cons_append, List.mem_cons, List.mem_append] at hq ⊢
            tauto)
          exact ⟨q', List.mem_append_right _ (hr ▸ hq'), hsame⟩
      have hps' : ∃ x ∈ ps, x.2.total = 0 ∨ Covers x.2 (ps ++ R.held s'.reasm) := by
        obtain ⟨x, hx, hx0⟩ := hps
        rcases List.mem_cons.1 hx with rfl | hx
        · rcases hx0 with hx0 | hx0
          · exact absurd hx0 htotal
          -- some part of the message is not held yet, so it is among the rest
          · obtain ⟨k, hk, hmiss⟩ : ∃ k ∈ List.range x.2.total,
                ¬ ∃ q ∈ x :: R.held s.reasm, SameMessage x.2 q.2 ∧ q.2.seq = k + 1 := by
              by_contra hall
              exact hcov fun k hk => by_contra fun hno => hall ⟨k, hk, hno⟩
            obtain ⟨q, hq, hsame, hseq⟩ := hx0 k hk
            have hqps : q ∈ ps := by
              by_contra hq'
              refine hmiss ⟨q, ?_, hsame, hseq⟩
              simp only [List.cons_append, List.mem_cons, List.mem_append] at hq ⊢
              tauto
            exact ⟨q, hqps, .inr ((hx0.mono hheld).of_same hsame)⟩
        · exact ⟨x, hx, hx0.imp_right fun h => h.mono hheld⟩
      have hreg' : s'.registered = true := by rw [hs']; simp [heq, hreg]
      obtain ⟨n, t, hn, ht, harr⟩ := ih s' _ rfl hreg' hps'
      refine ⟨n + 1, t, ?_, ht, by rw [harr, hs', heq]⟩
      rw [List.replicate_succ]
      exact exec_cons.2 ⟨s', hstep, hn⟩
    · refine ⟨1, s', exec_cons.2 ⟨s', hstep, rfl⟩, ?_, ?_⟩
      · rw [hs']; simp [heq, hadd]
      · rw [hs', heq]

/-- **Nothing in the storage when the process starts is ever executed**, in
any run. -/
def Silent (R : SmsReassembler) (decode : Text → Option SmsMessage) (S : Storage) : Prop :=
  ∀ (as : List ApplianceAct) (t : Appliance R), exec (step decode) (off S) as = some t →
    ∀ d ∈ t.log, ¬ ∀ p ∈ d.parts, p.1 ∈ S.ids

/-- What was decoded from a message of the storage is a part of it. -/
theorem mem_parts_of_id {S : Storage} {as : List ApplianceAct} {t : Appliance R}
    (h : exec (step decode) (off S) as = some t) {p : Part} (hp : p ∈ parts decode t.arrived)
    (hid : p.1 ∈ S.ids) : p ∈ parts decode S.entries := by
  have hsub : ∀ e ∈ S.entries, e ∈ t.arrived := by
    refine exec_invariant (I := fun s : Appliance R => ∀ e ∈ S.entries, e ∈ s.arrived)
      (fun s a u hs hst => ?_) (fun e he => he) h
    cases steps_of_step hst with
    | arrive => exact fun e he => List.mem_append_left _ (hs e he)
    | @handOver p =>
      obtain ⟨added, r, heq, -⟩ := s.handOver_spec p
      rw [heq]
      exact hs
    | _ => exact hs
  obtain ⟨e, he, hep⟩ := mem_parts.1 hp
  obtain ⟨e', he', hee'⟩ := List.mem_map.1 hid
  have : e' = e := List.inj_on_of_nodup_map (sourced_of_exec h).ids_nodup (hsub e' he') he
    (by rw [hee', (id_of_part hep).1])
  exact mem_parts.2 ⟨e, this ▸ he', hep⟩

/-- **The appliance starts silently exactly when its storage holds no whole
message.** -/
theorem silent_iff (R : SmsReassembler) (decode : Text → Option SmsMessage) (S : Storage) :
    Silent R decode S ↔ ¬ Whole (parts decode S.entries) := by
  constructor
  · -- the first drain comes to the message
    intro hsilent hwhole
    let s : Appliance R := Appliance.mk S.entries S.entries
      (.draining (parts decode S.entries) []) true R.init [] []
    have hps : ∃ x ∈ parts decode S.entries,
        x.2.total = 0 ∨ Covers x.2 (parts decode S.entries ++ R.held s.reasm) := by
      simpa [s, R.held_init, Whole] using hwhole
    obtain ⟨n, t, hn, ht, harr⟩ :
        ∃ n t, exec (step decode) s (List.replicate n .handOver) = some t ∧ t.log ≠ [] ∧
          t.arrived = s.arrived := exists_delivery _ s [] rfl rfl hps
    have hrun : exec (step decode) (off S)
        (.start true :: .poll (some S.entries) :: List.replicate n .handOver) = some t := by
      simpa [exec, step, off, s] using hn
    obtain ⟨d, ds, hds⟩ := List.exists_cons_of_ne_nil ht
    have hd : d ∈ t.log := by simp [hds]
    refine hsilent _ t hrun d hd fun p hp => ?_
    have hpa := ((sourced_of_exec hrun).log d hd).2 p hp
    rw [harr] at hpa
    obtain ⟨e, he, hep⟩ := mem_parts.1 hpa
    exact List.mem_map.2 ⟨e, he, (id_of_part hep).1.symm⟩
  · intro hnone as t h d hd hall
    obtain ⟨hwhole, hfrom⟩ := (sourced_of_exec h).log d hd
    exact hnone (hwhole.mono fun p hp => mem_parts_of_id h (hfrom p hp) (hall p hp))

/-- A stored message of one part. -/
def storedReboot : StoredSms :=
  ⟨0, 1, "+CMGL: 1,1,,24".toList, "00".toList, by decide, by decide⟩

/-- Every PDU is a command of one part. -/
def decodeReboot (_ : Text) : Option SmsMessage :=
  some { sender := "+1".toList, text := "REBOOT".toList, scts := [] }

/-- **A stored command is executed on boot.** -/
theorem not_silent_stored :
    ¬ ∀ (R : SmsReassembler) (decode : Text → Option SmsMessage) (S : Storage),
      Silent R decode S := by
  intro h
  have hrun : exec (step decodeReboot)
      (off ⟨[storedReboot], by decide, by decide⟩ : Appliance listReassembler)
      [.start true, .poll (some [storedReboot]), .handOver] =
      some ⟨[storedReboot], [storedReboot], .draining [] [1], true, [],
        [⟨⟨"+1".toList, "REBOOT".toList, []⟩, parts decodeReboot [storedReboot]⟩],
        parts decodeReboot [storedReboot]⟩ := by rfl
  exact h _ _ _ _ _ hrun _ (List.mem_singleton_self _) (by decide)

/-! ## Executing a message once -/

/-- **The step leaves nothing to be executed twice**: a listing is of what
the storage holds now, a deletion succeeds, and the process does not stop
between a hand-over and its deletion. -/
def Settled (s : Appliance R) : ApplianceAct → Prop
  | .poll (some es) => es.Nodup ∧ ∀ e ∈ es, e ∈ s.storage
  | .delete deleted => deleted = true
  | .stop => s.proc.pending = []
  | _ => True

instance (s : Appliance R) (a : ApplianceAct) : Decidable (Settled s a) := by
  unfold Settled
  split <;> infer_instance

/-- The invariant of a settled run: what has been handed over and is still
stored is about to be deleted, and nothing else has yet to be handed over
that has been. -/
structure Once (decode : Text → Option SmsMessage) (s : Appliance R) : Prop where
  ids_nodup : (s.arrived.map StoredSms.id).Nodup
  stored : ∀ e ∈ s.storage, e ∈ s.arrived
  handed_arrived : ∀ i ∈ s.handed.map Prod.fst, i ∈ s.arrived.map StoredSms.id
  handed_nodup : (s.handed.map Prod.fst).Nodup
  pending : ∀ e ∈ s.storage, e.id ∈ s.handed.map Prod.fst → e.index ∈ s.proc.pending
  todo_arrived : ∀ p ∈ s.proc.todo, p ∈ parts decode s.arrived
  todo_nodup : (s.proc.todo.map Prod.fst).Nodup
  todo_fresh : ∀ p ∈ s.proc.todo, p.1 ∉ s.handed.map Prod.fst
  delivered : (s.log.flatMap Delivery.parts ++ R.held s.reasm).Subperm s.handed

theorem once_off (S : Storage) : Once decode (off S : Appliance R) where
  ids_nodup := S.ids_nodup
  stored := fun _ he => he
  handed_arrived := by simp [off]
  handed_nodup := by simp [off]
  pending := by simp [off]
  todo_arrived := by simp [off, Proc.todo]
  todo_nodup := by simp [off, Proc.todo]
  todo_fresh := by simp [off, Proc.todo]
  delivered := by simp [off, R.held_init]

/-- The parts of different messages have different identities. -/
theorem parts_ids_nodup {es : List StoredSms} (h : (es.map StoredSms.id).Nodup) :
    ((parts decode es).map Prod.fst).Nodup := by
  induction es with
  | nil => simp [parts]
  | cons e es ih =>
    obtain ⟨he, hes⟩ := List.nodup_cons.1 h
    cases hp : e.part decode with
    | none => simpa [parts, hp] using ih hes
    | some p =>
      have hparts : parts decode (e :: es) = p :: parts decode es := by simp [parts, hp]
      rw [hparts, List.map_cons, List.nodup_cons]
      refine ⟨?_, ih hes⟩
      intro hmem
      obtain ⟨q, hq, hqp⟩ := List.mem_map.1 hmem
      obtain ⟨e', he', hq'⟩ := mem_parts.1 hq
      refine he (List.mem_map.2 ⟨e', he', ?_⟩)
      rw [← (id_of_part hq').1, hqp, (id_of_part hp).1]

/-- **A settled step keeps everything executed at most once.** -/
theorem Once.step {s t : Appliance R} {a : ApplianceAct} (hs : Once decode s) (ha : Settled s a)
    (h : s.step decode a = some t) : Once decode t := by
  obtain ⟨hids, hstored, harr, hnodup, hpend, htodoA, htodoN, htodoF, hdel⟩ := hs
  cases steps_of_step h with
  | @arrive e hid hslot =>
    refine ⟨?_, ?_, ?_, hnodup, ?_, ?_, htodoN, htodoF, hdel⟩
    · exact nodup_map_snoc hids hid
    · intro e' he'
      rcases List.mem_append.1 he' with he' | he'
      · exact List.mem_append_left _ (hstored e' he')
      · exact List.mem_append_right _ he'
    · intro i hi
      rw [List.map_append]
      exact List.mem_append_left _ (harr i hi)
    · intro e' he' hin
      rcases List.mem_append.1 he' with he' | he'
      · exact hpend e' he' hin
      · rw [List.mem_singleton.1 he'] at hin
        exact absurd (harr _ hin) hid
    · exact fun p hp => parts_mono (fun e' he' => List.mem_append_left _ he') (htodoA p hp)
  | @start opened hp =>
    rw [hp] at hpend
    refine ⟨hids, hstored, harr, hnodup, ?_, ?_, ?_, ?_, hdel⟩
    · cases opened <;> exact hpend
    all_goals cases opened <;> simp [Proc.todo]
  | pollFailed hp => exact ⟨hids, hstored, harr, hnodup, hpend, htodoA, htodoN, htodoF, hdel⟩
  | @poll es hp hes =>
    obtain ⟨hesN, hesS⟩ := ha
    rw [hp] at hpend
    refine ⟨hids, hstored, harr, hnodup, hpend, fun p hp => parts_mono hes hp, ?_, ?_, hdel⟩
    · refine parts_ids_nodup (hesN.map_on ?_)
      intro e he e' he' hee'
      exact List.inj_on_of_nodup_map hids (hes e he) (hes e' he') hee'
    · intro p hp hin
      obtain ⟨e, he, hep⟩ := mem_parts.1 hp
      rw [(id_of_part hep).1] at hin
      exact absurd (hpend e (hesS e he) hin) (by simp [Proc.pending])
  | @handOver p todo toDelete hp =>
    rw [hp] at hpend htodoA htodoN htodoF
    simp only [Proc.todo, List.map_cons, List.nodup_cons] at htodoN
    obtain ⟨e, he, hep⟩ := mem_parts.1 (htodoA p (by simp [Proc.todo]))
    obtain ⟨hpid, hpindex⟩ := id_of_part hep
    have hfresh : p.1 ∉ s.handed.map Prod.fst := htodoF p (by simp [Proc.todo])
    obtain ⟨added, r, heq, hsub, -, -⟩ := s.handOver_spec p
    rw [heq]
    refine ⟨hids, hstored, ?_, ?_, ?_, fun q hq => htodoA q (List.mem_cons_of_mem p hq),
      htodoN.2, ?_, ?_⟩
    · intro i hi
      simp only [List.map_append, List.map_cons, List.map_nil, List.mem_append,
        List.mem_singleton] at hi
      rcases hi with hi | rfl
      · exact harr i hi
      · exact List.mem_map.2 ⟨e, he, hpid.symm⟩
    · exact nodup_map_snoc hnodup hfresh
    · -- a stored message that was just handed over is the one at the head
      intro e' he' hin
      simp only [List.map_append, List.map_cons, List.map_nil, List.mem_append,
        List.mem_singleton] at hin
      simp only [Proc.pending, List.mem_append, List.mem_singleton]
      rcases hin with hin | hin
      · exact .inl (hpend e' he' hin)
      · have : e' = e := List.inj_on_of_nodup_map hids (hstored e' he') he (hin.trans hpid)
        exact .inr (by rw [this, hpindex])
    · intro q hq hin
      simp only [List.map_append, List.map_cons, List.map_nil, List.mem_append,
        List.mem_singleton] at hin
      rcases hin with hin | hin
      · exact htodoF q (List.mem_cons_of_mem p hq) hin
      · exact htodoN.1 (List.mem_map.2 ⟨q, hq, hin⟩)
    · rw [List.flatMap_append, List.append_assoc]
      refine ((List.subperm_append_left _).2 hsub).trans ?_
      refine List.perm_middle.subperm.trans ?_
      refine ((List.subperm_cons p).2 hdel).trans ?_
      exact (List.perm_append_singleton p s.handed).symm.subperm
  | @endLoop toDelete hp =>
    rw [hp] at hpend
    exact ⟨hids, hstored, harr, hnodup, hpend, by simp [Proc.todo], by simp [Proc.todo],
      by simp [Proc.todo], hdel⟩
  | @delete deleted i toDelete hp =>
    have hd : deleted = true := ha
    rw [hp] at hpend
    subst hd
    refine ⟨hids, ?_, harr, hnodup, ?_, by simp [Proc.todo], by simp [Proc.todo],
      by simp [Proc.todo], hdel⟩
    · exact fun e he => hstored e (List.mem_filter.1 he).1
    · intro e he hin
      obtain ⟨he, hne⟩ := List.mem_filter.1 he
      rcases List.mem_cons.1 (hpend e he hin) with h | h
      · exact absurd h (by simpa using hne)
      · exact h
  | endDelete hp =>
    rw [hp] at hpend
    exact ⟨hids, hstored, harr, hnodup, hpend, by simp [Proc.todo], by simp [Proc.todo],
      by simp [Proc.todo], hdel⟩
  | stop =>
    have hp : s.proc.pending = [] := ha
    rw [hp] at hpend
    refine ⟨hids, hstored, harr, hnodup, hpend, by simp [Proc.todo], by simp [Proc.todo],
      by simp [Proc.todo], ?_⟩
    rw [R.held_init, List.append_nil]
    exact (List.sublist_append_left _ _).subperm.trans hdel

/-- **In a settled run no stored message is executed twice.** -/
theorem delivered_once_of_settled {S : Storage} {as : List ApplianceAct} {t : Appliance R}
    (ha : Along (step decode) Settled (off S : Appliance R) as)
    (h : exec (step decode) (off S) as = some t) :
    ((t.log.flatMap Delivery.parts).map Prod.fst).Nodup := by
  have ht : Once decode t :=
    exec_invariant_along (fun _ _ _ hs hP hst => hs.step hP hst) (once_off S) ha h
  obtain ⟨handed, hperm, hsub⟩ : (t.log.flatMap Delivery.parts).Subperm t.handed :=
    (List.sublist_append_left _ _).subperm.trans ht.delivered
  exact (hperm.map Prod.fst).nodup_iff.1 ((hsub.map Prod.fst).nodup ht.handed_nodup)

/-- Two drains, each of what is stored then, with every deletion done. -/
def settledDrains : List ApplianceAct :=
  [.start true, .arrive storedReboot, .poll (some [storedReboot]), .handOver, .endLoop,
    .delete true, .endDelete, .poll (some []), .endLoop, .endDelete, .stop]

theorem delivered_once_settledDrains :
    Along (step decodeReboot) Settled
        (off ⟨[], by decide, by decide⟩ : Appliance listReassembler) settledDrains ∧
      ∃ t, exec (step decodeReboot)
          (off ⟨[], by decide, by decide⟩ : Appliance listReassembler) settledDrains = some t ∧
        t.log.length = 1 ∧ ((t.log.flatMap Delivery.parts).map Prod.fst).Nodup :=
  have ha : Along (step decodeReboot) Settled
      (off ⟨[], by decide, by decide⟩ : Appliance listReassembler) settledDrains := by decide
  ⟨ha, _, rfl, rfl, delivered_once_of_settled ha rfl⟩

/-- **A command that stops the process is executed again.** It is deleted
only after the drain that hands it over, and the next start lists it. -/
theorem not_delivered_once_stop :
    ¬ ∀ (R : SmsReassembler) (decode : Text → Option SmsMessage) (S : Storage)
      (as : List ApplianceAct) (t : Appliance R), exec (step decode) (off S) as = some t →
      ((t.log.flatMap Delivery.parts).map Prod.fst).Nodup := by
  intro h
  have hrun : exec (step decodeReboot)
      (off ⟨[], by decide, by decide⟩ : Appliance listReassembler)
      [.start true, .arrive storedReboot, .poll (some [storedReboot]), .handOver, .stop,
        .start true, .poll (some [storedReboot]), .handOver] =
      some ⟨[storedReboot], [storedReboot], .draining [] [1], true, [],
        List.replicate 2
          ⟨⟨"+1".toList, "REBOOT".toList, []⟩, parts decodeReboot [storedReboot]⟩,
        List.replicate 2 (0, ⟨"+1".toList, "REBOOT".toList, [], 1, 0, 0, 0⟩)⟩ := by rfl
  exact absurd (h _ _ _ _ _ hrun) (by decide)

end Appliance

end Appliance

end ZeroTouch
