import ZeroTouch.Modem.Storage
/-!
# No message is lost

A message leaves the modem's storage by `AT+CMGD` alone, and the loop that
sends it names the slots of the drain it belongs to. A slot is not used
again before it is free, so what is deleted is what was handed over
(`no_message_lost`), however often a deletion fails and wherever the
process stops. And a drain that is left to itself comes to its end, with
everything it could decode handed over and gone (`drain_clears`); what it
could not decode stays for good.
-/

namespace ZeroTouch

section Appliance

variable {R : SmsReassembler} {decode : Text → Option SmsMessage}

namespace Appliance

/-- **A listing is of what the storage holds now**, each message once. -/
def Current (s : Appliance R) : ApplianceAct → Prop
  | .poll (some es) => es.Nodup ∧ ∀ e ∈ es, e ∈ s.storage
  | _ => True

instance (s : Appliance R) : ∀ a, Decidable (Current s a)
  | .poll (some es) => inferInstanceAs (Decidable (es.Nodup ∧ ∀ e ∈ es, e ∈ s.storage))
  | .poll none | .start _ | .stop | .arrive _ | .handOver | .endLoop | .delete _ | .endDelete =>
    isTrue trivial

/-- The part was handed over, and executed if it is a message by itself. -/
structure Handed (s : Appliance R) (p : Part) : Prop where
  handed : p ∈ s.handed
  executed : p.2.total = 0 → ∃ d ∈ s.log, d.parts = [p]

/-- The slots a drain is about, to be deleted now or after their messages
are handed over. -/
def slots (s : Appliance R) : List Int := s.proc.pending ++ s.proc.todo.map fun p => p.2.index

/-- **What is deleted was handed over.** -/
structure Retained (decode : Text → Option SmsMessage) (s : Appliance R) : Prop where
  ids_nodup : (s.arrived.map StoredSms.id).Nodup
  stored : ∀ e ∈ s.storage, e ∈ s.arrived
  storage_nodup : (s.storage.map StoredSms.index).Nodup
  kept : ∀ e ∈ s.arrived, e ∈ s.storage ∨ ∃ p, e.part decode = some p ∧ s.Handed p
  pending : ∀ i ∈ s.proc.pending,
    ∃ e ∈ s.storage, ∃ p, e.index = i ∧ e.part decode = some p ∧ s.Handed p
  todo : ∀ p ∈ s.proc.todo, ∃ e ∈ s.storage, e.part decode = some p
  slots_nodup : s.slots.Nodup
  registered : s.proc ≠ .down → s.registered = true

theorem retained_off (S : Storage) : Retained decode (off S : Appliance R) where
  ids_nodup := S.ids_nodup
  stored := fun _ he => he
  storage_nodup := S.slots_nodup
  kept := fun _ he => .inl he
  pending := by simp [off, Proc.pending]
  todo := by simp [off, Proc.todo]
  slots_nodup := by simp [slots, off, Proc.pending, Proc.todo]
  registered := by simp [off]

/-- What was handed over stays so. -/
theorem Handed.mono {s t : Appliance R} {p : Part} (h : s.Handed p)
    (hhanded : ∀ q ∈ s.handed, q ∈ t.handed) (hlog : ∀ d ∈ s.log, d ∈ t.log) : t.Handed p where
  handed := hhanded p h.handed
  executed h0 := (h.executed h0).imp fun d hd => ⟨hlog d hd.1, hd.2⟩

/-- The parts of a listing lie in different slots. -/
theorem nodup_parts_slots {es : List StoredSms} (h : (es.map StoredSms.index).Nodup) :
    ((parts decode es).map fun p => p.2.index).Nodup := by
  have hsub : ((parts decode es).map fun p => p.2.index).Sublist (es.map StoredSms.index) := by
    induction es with
    | nil => exact List.nil_sublist _
    | cons e es ih =>
      have ih := ih (List.nodup_cons.1 h).2
      cases hp : e.part decode with
      | none => simpa [parts, hp] using ih.cons e.index
      | some p =>
        have hindex : p.2.index = e.index := (id_of_part hp).2
        have hparts : parts decode (e :: es) = p :: parts decode es := by simp [parts, hp]
        rw [hparts, List.map_cons, List.map_cons, hindex]
        exact ih.cons_cons e.index
  exact hsub.nodup h

/-- Handing a part over executes it, where it is a message by itself. -/
theorem handed_of_handOver {s : Appliance R} (hr : s.registered = true) (p : Part)
    (proc : Proc) :
    ({ s.handOver p with proc := proc, handed := s.handed ++ [p] } : Appliance R).Handed p where
  handed := List.mem_append_right _ (List.mem_singleton_self p)
  executed h := by
    refine ⟨⟨⟨p.2.sender, p.2.text, p.2.scts⟩, [p]⟩, ?_, rfl⟩
    simp [handOver, deliver, h, hr]

/-- Between drains no slot is in question. -/
theorem Retained.setProc {s : Appliance R} (hs : Retained decode s) {proc : Proc}
    {registered : Bool} {reasm : R.State} (hpending : proc.pending = []) (htodo : proc.todo = [])
    (hr : proc ≠ .down → registered = true) :
    Retained decode { s with proc := proc, registered := registered, reasm := reasm } where
  ids_nodup := hs.ids_nodup
  stored := hs.stored
  storage_nodup := hs.storage_nodup
  kept e he := (hs.kept e he).imp_right fun ⟨p, hp, hh⟩ => ⟨p, hp, { hh with }⟩
  pending := by simp [hpending]
  todo := by simp [htodo]
  slots_nodup := by simp [slots, hpending, htodo]
  registered := hr

theorem Retained.step {s t : Appliance R} {a : ApplianceAct} (hs : Retained decode s)
    (ha : Current s a) (h : s.step decode a = some t) : Retained decode t := by
  cases steps_of_step h with
  | @arrive e hid hslot =>
    have hmem : ∀ e' ∈ s.storage, e' ∈ s.storage ++ [e] := fun _ => List.mem_append_left _
    refine ⟨nodup_map_snoc hs.ids_nodup hid, ?_, nodup_map_snoc hs.storage_nodup hslot, ?_, ?_, ?_,
      hs.slots_nodup, hs.registered⟩
    · intro e' he'
      rcases List.mem_append.1 he' with he' | he'
      · exact List.mem_append_left _ (hs.stored e' he')
      · exact List.mem_append_right _ he'
    · intro e' he'
      rcases List.mem_append.1 he' with he' | he'
      · exact (hs.kept e' he').imp (hmem e') fun ⟨p, hp, hh⟩ => ⟨p, hp, { hh with }⟩
      · exact .inl (List.mem_append_right _ he')
    · intro i hi
      obtain ⟨e', he', p, hi', hp, hh⟩ := hs.pending i hi
      exact ⟨e', hmem e' he', p, hi', hp, { hh with }⟩
    · intro p hp
      obtain ⟨e', he', hep⟩ := hs.todo p hp
      exact ⟨e', hmem e' he', hep⟩
  | @start opened hp =>
    exact hs.setProc (by cases opened <;> rfl) (by cases opened <;> rfl) fun _ => rfl
  | pollFailed hp => exact hs
  | @poll es hp hes =>
    obtain ⟨hnodup, hstored⟩ := ha
    have hslots : (es.map StoredSms.index).Nodup :=
      hnodup.map_on fun e he e' he' heq =>
        List.inj_on_of_nodup_map hs.storage_nodup (hstored e he) (hstored e' he') heq
    refine ⟨hs.ids_nodup, hs.stored, hs.storage_nodup, ?_, by simp [Proc.pending], ?_, ?_, ?_⟩
    · exact fun e he => (hs.kept e he).imp_right fun ⟨p, hp, hh⟩ => ⟨p, hp, { hh with }⟩
    · intro p hp
      obtain ⟨e, he, hep⟩ := mem_parts.1 hp
      exact ⟨e, hstored e he, hep⟩
    · simpa [slots, Proc.pending, Proc.todo] using nodup_parts_slots hslots
    · exact fun _ => hs.registered (by simp [hp])
  | @handOver p todo toDelete hp =>
    have hreg := hs.registered (by simp [hp])
    have hslots := hs.slots_nodup
    have htodo := hs.todo
    have hpending := hs.pending
    rw [slots, hp] at hslots
    rw [hp] at htodo hpending
    obtain ⟨e, he, hep⟩ := htodo p (List.mem_cons_self ..)
    have hhanded := handed_of_handOver hreg p (.draining todo (toDelete ++ [p.2.index]))
    obtain ⟨added, r, heq, -⟩ := s.handOver_spec p
    rw [heq] at hhanded ⊢
    -- nothing handed over before is forgotten
    have hmono : ∀ {q}, s.Handed q → Handed _ q := fun hq =>
      hq.mono (t := { { s with reasm := r, log := s.log ++ added } with
          proc := .draining todo (toDelete ++ [p.2.index]), handed := s.handed ++ [p] })
        (fun _ => List.mem_append_left _) fun _ => List.mem_append_left _
    refine ⟨hs.ids_nodup, hs.stored, hs.storage_nodup, ?_, ?_,
      fun q hq => htodo q (List.mem_cons_of_mem p hq), ?_, fun _ => hreg⟩
    · exact fun e he => (hs.kept e he).imp_right fun ⟨q, hq, hh⟩ => ⟨q, hq, hmono hh⟩
    · intro i hi
      rcases List.mem_append.1 hi with hi | hi
      · obtain ⟨e', he', q, hi', hq, hh⟩ := hpending i hi
        exact ⟨e', he', q, hi', hq, hmono hh⟩
      · obtain rfl := List.mem_singleton.1 hi
        exact ⟨e, he, p, (id_of_part hep).2.symm, hep, hhanded⟩
    · simpa [slots, Proc.pending, Proc.todo] using hslots
  | @endLoop toDelete hp =>
    have hslots := hs.slots_nodup
    have hpending := hs.pending
    rw [slots, hp] at hslots
    rw [hp] at hpending
    refine ⟨hs.ids_nodup, hs.stored, hs.storage_nodup, ?_, ?_, by simp [Proc.todo], ?_,
      fun _ => hs.registered (by simp [hp])⟩
    · exact fun e he => (hs.kept e he).imp_right fun ⟨q, hq, hh⟩ => ⟨q, hq, { hh with }⟩
    · intro i hi
      obtain ⟨e', he', q, hi', hq, hh⟩ := hpending i hi
      exact ⟨e', he', q, hi', hq, { hh with }⟩
    · simpa [slots, Proc.pending, Proc.todo] using hslots
  | @delete deleted i toDelete hp =>
    have hslots := hs.slots_nodup
    have hpending := hs.pending
    rw [slots, hp] at hslots
    rw [hp] at hpending
    have hslots : (i :: toDelete).Nodup := by simpa [Proc.pending, Proc.todo] using hslots
    obtain ⟨hfresh, hrest⟩ := List.nodup_cons.1 hslots
    have hreg : s.registered = true := hs.registered (by simp [hp])
    have hlater : ∀ j ∈ toDelete, j ≠ i := fun j hj hji => hfresh (hji ▸ hj)
    cases deleted with
    | false =>
      refine ⟨hs.ids_nodup, hs.stored, hs.storage_nodup, ?_, ?_, by simp [Proc.todo], ?_,
        fun _ => hreg⟩
      · exact fun e he => (hs.kept e he).imp_right fun ⟨q, hq, hh⟩ => ⟨q, hq, { hh with }⟩
      · intro j hj
        obtain ⟨e', he', q, hj', hq, hh⟩ := hpending j (List.mem_cons_of_mem i hj)
        exact ⟨e', he', q, hj', hq, { hh with }⟩
      · simpa [slots, Proc.pending, Proc.todo] using hrest
    | true =>
      have hstays : ∀ e ∈ s.storage, e.index ≠ i →
          e ∈ s.storage.filter fun e => decide (e.index ≠ i) :=
        fun e he hne => List.mem_filter.2 ⟨he, decide_eq_true hne⟩
      refine ⟨hs.ids_nodup, fun e he => hs.stored e (List.mem_filter.1 he).1,
        (List.filter_sublist.map _).nodup hs.storage_nodup, ?_, ?_, by simp [Proc.todo], ?_,
        fun _ => hreg⟩
      · intro e he
        rcases hs.kept e he with he | ⟨q, hq, hh⟩
        · by_cases hi : e.index = i
          · -- the only message in the slot that is deleted was handed over
            obtain ⟨e', he', q, hi', hq, hh⟩ := hpending i (List.mem_cons_self ..)
            obtain rfl := List.inj_on_of_nodup_map hs.storage_nodup he he' (hi.trans hi'.symm)
            exact .inr ⟨q, hq, { hh with }⟩
          · exact .inl (hstays e he hi)
        · exact .inr ⟨q, hq, { hh with }⟩
      · intro j hj
        obtain ⟨e', he', q, hj', hq, hh⟩ := hpending j (List.mem_cons_of_mem i hj)
        exact ⟨e', hstays e' he' (hj' ▸ hlater j hj), q, hj', hq, { hh with }⟩
      · simpa [slots, Proc.pending, Proc.todo] using hrest
  | endDelete hp => exact hs.setProc rfl rfl fun _ => hs.registered (by simp [hp])
  | stop => exact hs.setProc rfl rfl fun h => absurd rfl h

/-- **Nothing comes in between**: the process goes on, and every deletion
is done. -/
def Draining (s : Appliance R) : ApplianceAct → Prop
  | .start _ => False
  | .stop => False
  | .delete deleted => deleted = true
  | a => Current s a

theorem Draining.current {s : Appliance R} {a : ApplianceAct} (h : Draining s a) : Current s a := by
  cases a with
  | poll => exact h
  | _ => trivial

/-- The message is gone, or on its way out. -/
def Leaving (s : Appliance R) (e : StoredSms) (p : Part) : Prop :=
  e ∉ s.storage ∨ p ∈ s.proc.todo ∨ e.index ∈ s.proc.pending

theorem Leaving.step {s t : Appliance R} {a : ApplianceAct} {e : StoredSms} {p : Part}
    (hs : Leaving s e p) (he : e ∈ s.arrived) (hp : e.part decode = some p) (ha : Draining s a)
    (h : s.step decode a = some t) : Leaving t e p := by
  cases steps_of_step h with
  | @arrive e' hid hslot =>
    refine hs.imp_left fun hgone hmem => ?_
    rcases List.mem_append.1 hmem with hmem | hmem
    · exact hgone hmem
    · obtain rfl := List.mem_singleton.1 hmem
      exact hid (List.mem_map_of_mem he)
  | start => exact ha.elim
  | pollFailed => exact hs
  | poll hproc => exact .inl (hs.resolve_right (by simp [hproc, Proc.todo, Proc.pending]))
  | @handOver q todo toDelete hproc =>
    obtain ⟨added, r, heq, -⟩ := s.handOver_spec q
    rw [heq]
    rcases hs with hgone | htodo | hpending
    · exact .inl hgone
    · rw [hproc] at htodo
      rcases List.mem_cons.1 htodo with rfl | htodo
      · refine .inr (.inr (List.mem_append_right _ ?_))
        rw [← (id_of_part hp).2]
        exact List.mem_singleton_self _
      · exact .inr (.inl htodo)
    · rw [hproc] at hpending
      exact .inr (.inr (List.mem_append_left _ hpending))
  | endLoop hproc =>
    rcases hs with hgone | htodo | hpending
    · exact .inl hgone
    · simp [hproc, Proc.todo] at htodo
    · rw [hproc] at hpending
      exact .inr (.inr hpending)
  | @delete deleted i toDelete hproc =>
    obtain rfl : deleted = true := ha
    rcases hs with hgone | htodo | hpending
    · exact .inl fun hmem => hgone (List.mem_filter.1 hmem).1
    · simp [hproc, Proc.todo] at htodo
    · rw [hproc] at hpending
      rcases List.mem_cons.1 hpending with rfl | hpending
      · exact .inl fun hmem => of_decide_eq_true (List.mem_filter.1 hmem).2 rfl
      · exact .inr (.inr hpending)
  | endDelete hproc => exact .inl (hs.resolve_right (by simp [hproc, Proc.todo, Proc.pending]))
  | stop => exact ha.elim

/-- The steps that are left to a drain. -/
def left (s : Appliance R) : ℕ :=
  match s.proc with
  | .draining todo toDelete => 2 * todo.length + toDelete.length + 2
  | .deleting toDelete => toDelete.length + 1
  | _ => 0

/-- The process is in a drain, or between two. -/
def Running (s : Appliance R) : Prop :=
  match s.proc with
  | .down => False
  | .deaf => False
  | _ => True

/-- A step of the drain itself. -/
def Own (s : Appliance R) : ApplianceAct → Prop
  | .arrive _ => False
  | .poll _ => False
  | a => Draining s a

theorem Own.draining {s : Appliance R} {a : ApplianceAct} (h : Own s a) : Draining s a := by
  cases a with
  | arrive => exact h.elim
  | poll => exact h.elim
  | _ => exact h

theorem Own.step {s t : Appliance R} {a : ApplianceAct} (ha : Own s a)
    (h : s.step decode a = some t) : Running t ∧ left t < left s := by
  cases steps_of_step h with
  | arrive => exact ha.elim
  | start => exact ha.elim
  | pollFailed => exact ha.elim
  | poll => exact ha.elim
  | handOver hproc =>
    refine ⟨trivial, ?_⟩
    simp only [left, hproc, List.length_cons, List.length_append, List.length_nil]
    omega
  | endLoop hproc =>
    refine ⟨trivial, ?_⟩
    simp only [left, hproc, List.length_nil]
    omega
  | delete hproc =>
    refine ⟨trivial, ?_⟩
    simp only [left, hproc, List.length_cons]
    omega
  | endDelete hproc =>
    refine ⟨trivial, ?_⟩
    simp only [left, hproc, List.length_nil]
    omega
  | stop => exact ha.elim

theorem exists_own {s : Appliance R} (hs : Running s) (hidle : s.proc ≠ .idle) :
    ∃ a t, Own s a ∧ s.step decode a = some t := by
  have hgo : ∀ a, Own s a → (s.step decode a).isSome = true →
      ∃ a t, Own s a ∧ s.step decode a = some t := fun a ha h =>
    have ⟨t, ht⟩ := Option.isSome_iff_exists.1 h
    ⟨a, t, ha, ht⟩
  unfold Running at hs
  cases hproc : s.proc with
  | down => simp [hproc] at hs
  | deaf => simp [hproc] at hs
  | idle => exact absurd hproc hidle
  | draining todo toDelete =>
    cases todo with
    | nil => exact hgo .endLoop trivial (by simp [step, hproc])
    | cons p todo => exact hgo .handOver trivial (by simp [step, hproc])
  | deleting toDelete =>
    cases toDelete with
    | nil => exact hgo .endDelete trivial (by simp [step, hproc])
    | cons i toDelete => exact hgo (.delete true) rfl (by simp [step, hproc])

/-- What has arrived stays on record. -/
theorem Steps.arrived_subset {s t : Appliance R} {a : ApplianceAct} (h : Steps decode s a t)
    {e : StoredSms} (he : e ∈ s.arrived) : e ∈ t.arrived := by
  cases h with
  | arrive => exact List.mem_append_left _ he
  | @handOver p =>
    obtain ⟨added, r, heq, -⟩ := s.handOver_spec p
    rw [heq]
    exact he
  | _ => exact he

/-- **A drain clears the storage.** In whatever state it begins, when it is
over, everything that was stored and decodes has been handed over and is
gone; and it comes to its end, if nothing comes in between. -/
theorem drain_clears {S : Storage} {as : List ApplianceAct} {s : Appliance R}
    (ha : Along (step decode) Current (off S : Appliance R) as)
    (h : exec (step decode) (off S) as = some s) (hidle : s.proc = .idle) :
    (∀ bs t, Along (step decode) Draining s (.poll (some s.storage) :: bs) →
      exec (step decode) s (.poll (some s.storage) :: bs) = some t → t.proc = .idle →
        ∀ e ∈ s.storage, ∀ p, e.part decode = some p →
          e ∉ t.storage ∧ p ∈ t.handed ∧ (p.2.total = 0 → ∃ d ∈ t.log, d.parts = [p])) ∧
      ∃ bs t, Along (step decode) Draining s (.poll (some s.storage) :: bs) ∧
        exec (step decode) s (.poll (some s.storage) :: bs) = some t ∧ t.proc = .idle := by
  have hs : Retained decode s :=
    exec_invariant_along (fun _ _ _ hs hP hst => hs.step hP hst) (retained_off S) ha h
  have hcurrent : Draining s (.poll (some s.storage)) := ⟨hs.storage_nodup.of_map _, fun _ h => h⟩
  have hpoll : s.step decode (.poll (some s.storage)) =
      some { s with proc := .draining (parts decode s.storage) [] } := by
    simp only [step, hidle]
    exact if_pos hs.stored
  refine ⟨fun bs t hbs ht hend e he p hp => ?_, ?_⟩
  · obtain ⟨-, hbs⟩ := along_cons.1 hbs
    obtain ⟨u, hu, ht⟩ := exec_cons.1 ht
    obtain rfl := Option.some.inj (hpoll.symm.trans hu)
    have hinit : Retained decode { s with proc := .draining (parts decode s.storage) [] } :=
      hs.step hcurrent.current hpoll
    have hleaving : Leaving { s with proc := .draining (parts decode s.storage) [] } e p :=
      .inr (.inl (mem_parts.2 ⟨e, he, hp⟩))
    obtain ⟨hkept, harrived, hgone⟩ : Retained decode t ∧ e ∈ t.arrived ∧ Leaving t e p :=
      exec_invariant_along
        (I := fun t : Appliance R => Retained decode t ∧ e ∈ t.arrived ∧ Leaving t e p)
        (fun _ _ _ hI ha hst => ⟨hI.1.step ha.current hst,
          (steps_of_step hst).arrived_subset hI.2.1, hI.2.2.step hI.2.1 hp ha hst⟩)
        ⟨hinit, hs.stored e he, hleaving⟩ (hbs _ hpoll) ht
    have hout : e ∉ t.storage := hgone.resolve_right (by simp [hend, Proc.todo, Proc.pending])
    obtain ⟨q, hq, hh⟩ := (hkept.kept e harrived).resolve_left hout
    obtain rfl := Option.some.inj (hp.symm.trans hq)
    exact ⟨hout, hh.handed, hh.executed⟩
  · have hrun : Running { s with proc := .draining (parts decode s.storage) [] } := trivial
    obtain ⟨bs, t, hbs, ht, hend⟩ :=
      exists_exec_of_progress (G := fun t : Appliance R => t.proc = .idle)
        (fun _ _ _ _ ha hst => ha.step hst) (fun _ => exists_own) hrun
    refine ⟨bs, t, along_cons.2 ⟨hcurrent, fun u hu => ?_⟩, exec_cons.2 ⟨_, hpoll, ht⟩, hend⟩
    obtain rfl := Option.some.inj (hpoll.symm.trans hu)
    exact hbs.imp fun _ _ => Own.draining

/-- A deletion that fails, a stop and a start, and a drain that is left to
itself. -/
def storedTwice : List ApplianceAct :=
  [.start true, .arrive storedReboot, .poll (some [storedReboot]), .handOver, .endLoop,
    .delete false, .stop, .start true]

theorem drain_clears_storedTwice :
    ∃ s, exec (step decodeReboot)
        (off ⟨[], by decide, by decide⟩ : Appliance listReassembler) storedTwice = some s ∧
      ∃ bs t, exec (step decodeReboot) s (.poll (some s.storage) :: bs) = some t ∧
        s.storage = [storedReboot] ∧ storedReboot ∉ t.storage := by
  have ha : Along (step decodeReboot) Current
      (off ⟨[], by decide, by decide⟩ : Appliance listReassembler) storedTwice := by decide
  obtain ⟨hclear, bs, t, hbs, ht, hend⟩ := drain_clears ha rfl rfl
  exact ⟨_, rfl, bs, t, ht, rfl,
    (hclear bs t hbs ht hend storedReboot (List.mem_singleton_self _) _ rfl).1⟩

end Appliance

end Appliance

end ZeroTouch
