import ZeroTouch.Ds.SmsTransport
/-!
# The replay guard of the data store transport

What the slot held when `start` was called may be an old command, so
`start` reads it and remembers it as seen. A read that fails is passed
over in silence: the memory stays empty, and the next bump, for whatever
reason, delivers what was there (`not_published_failedBaseline`). Where the
baseline is read, or there is nothing to guard against by the time it
fails, the message of the start is delivered only if it is published again
(`published_of_delivered`).
-/

namespace ZeroTouch

namespace DsSmsTransport

/-- **The step is no baseline that fails over a message that was there at
the start and can be delivered.** -/
def Guarded (s : DsSmsTransport) : DsAct → Prop
  | .baseline ok => ok = true ∨ s.published ≠ [] ∨ ¬ Sendable s.initial
  | _ => True

instance (s : DsSmsTransport) : ∀ a : DsAct, Decidable (Guarded s a)
  | .baseline _ => inferInstanceAs (Decidable (_ ∨ _ ∨ _))
  | .publish _ | .bump | .watch | .callback | .wake | .readLast _ | .deliver =>
    inferInstanceAs (Decidable True)

/-- The message of the start, content number zero of the slot, is not
delivered: as long as a drain can read it, it is what was seen last. -/
structure Shielded (s : DsSmsTransport) : Prop where
  log : ∀ e ∈ s.log, 0 < e.1
  slot : s.pc ≠ .fresh → s.published = [] → Sendable s.initial → s.seen = s.initial
  read : ∀ sms, s.pc = .read 0 sms → Sendable s.initial → s.seen = s.initial

theorem shielded_fresh (initial : InboundSms) : Shielded (fresh initial) := by
  constructor <;> simp [DsSmsTransport.fresh]

/-- The end of a drain does not deliver the message of the start. -/
theorem Shielded.deliver {s : DsSmsTransport} {k : ℕ} {sms : InboundSms} (hs : Shielded s)
    (ho : Ordered s) (hpc : s.pc = .read k sms) :
    Shielded { s.drainInbound k sms with pc := .idle, drained := s.drained ++ [k] } := by
  obtain ⟨hmsg, -⟩ := ho.read k sms hpc
  rcases s.drainInbound_cases k sms with ⟨-, heq⟩ | ⟨-, heq⟩ | ⟨hsend, hne, heq⟩
  all_goals rw [heq]
  · exact { hs with slot := fun _ => hs.slot (by simp [hpc]), read := by simp }
  · exact { hs with slot := fun _ => hs.slot (by simp [hpc]), read := by simp }
  · have hk : 0 < k := by
      rw [Nat.pos_iff_ne_zero]
      rintro rfl
      have hinit : s.initial = sms := Option.some.inj hmsg
      rw [← hinit] at hsend hne
      exact hne (hs.read sms hpc hsend).symm
    refine ⟨fun e he => ?_, fun _ hnil => ?_, by simp⟩
    · rcases List.mem_append.1 he with he | he
      · exact hs.log e he
      · rw [List.mem_singleton.1 he]
        exact hk
    · -- a later content was read, so there is one
      have hle := le_of_message hmsg
      have hlen : s.published.length = 0 := by rw [List.length_eq_zero_iff]; exact hnil
      omega

/-- **Every guarded step keeps the message of the start back.** -/
theorem Shielded.step {s t : DsSmsTransport} {a : DsAct} (hs : Shielded s) (ho : Ordered s)
    (ha : Guarded s a) (h : s.step a = some t) : Shielded t := by
  cases steps_of_step h with
  | publish sms => exact { hs with slot := by simp }
  | bump hw => exact { hs with }
  | unheard hw => exact hs
  | baseline hpc =>
    refine { hs with slot := fun _ hnil _ => ?_, read := by simp }
    have hnil : s.published = [] := hnil
    have hslot := ho.slot
    simp only [hnil, message, List.length_nil, List.getElem?_cons_zero, Option.some.injEq] at hslot
    exact hslot.symm
  | unread hpc =>
    refine { hs with slot := fun _ hnil hsend => ?_, read := by simp }
    rcases ha with ha | ha | ha
    · cases ha
    · exact absurd hnil ha
    · exact absurd hsend ha
  | watch hpc => exact { hs with slot := fun _ => hs.slot (by simp [hpc]), read := by simp }
  | callback hn => exact { hs with }
  | wake hpc =>
    refine { hs with slot := fun _ => hs.slot (by simp [hpc]), read := fun sms => ?_ }
    cases s.dirty <;> simp
  | readLast ok hpc =>
    have hslot := hs.slot (by simp [hpc])
    refine { hs with slot := fun _ => hslot, read := fun sms hread => ?_ }
    cases ok with
    | false => simp at hread
    | true =>
      simp only [if_true, ReactorPc.read.injEq] at hread
      exact hslot (List.length_eq_zero_iff.1 hread.1)
  | deliver hpc => exact hs.deliver ho hpc

/-- **An old message is not delivered.** In a run whose baseline is read,
or fails where the message of the start is gone or cannot be delivered, a
message that was in the slot at the start is passed to `on_message` only
if it has been published since, whichever other reads fail and whatever
bumps `sms.version`. -/
theorem published_of_delivered {initial : InboundSms} {as : List DsAct} {s : DsSmsTransport}
    (hg : Along step Guarded (fresh initial) as) (h : exec step (fresh initial) as = some s)
    (hd : initial ∈ s.delivered) : initial ∈ s.published := by
  have hs : Ordered s ∧ Shielded s :=
    exec_invariant_along (I := fun s => Ordered s ∧ Shielded s)
      (fun _ _ _ hI ha hst => ⟨hI.1.step hst, hI.2.step hI.1 ha hst⟩)
      ⟨ordered_fresh initial, shielded_fresh initial⟩ hg h
  obtain ⟨e, he, hemsg⟩ := List.mem_map.1 hd
  obtain ⟨k, hk⟩ := Nat.exists_eq_succ_of_ne_zero (Nat.ne_of_gt (hs.2.log e he))
  have hmsg := hs.1.log e he
  rw [hk, message, List.getElem?_cons_succ, hemsg] at hmsg
  exact List.mem_of_getElem? hmsg

/-- A message is there at the start, a bump comes for another reason, and
then the message is published again after another. -/
def publishedAgain : List DsAct :=
  [.baseline true, .watch, .bump, .callback, .wake, .readLast true, .deliver,
    .publish ⟨"+1".toList, "STATUS".toList, "2".toList⟩, .bump, .callback, .wake,
    .readLast true, .deliver,
    .publish ⟨"+1".toList, "REBOOT".toList, "1".toList⟩, .bump, .callback, .wake,
    .readLast true, .deliver]

theorem published_of_delivered_publishedAgain :
    Along step Guarded (fresh ⟨"+1".toList, "REBOOT".toList, "1".toList⟩) publishedAgain ∧
      ∃ s, exec step (fresh ⟨"+1".toList, "REBOOT".toList, "1".toList⟩) publishedAgain = some s ∧
        ⟨"+1".toList, "REBOOT".toList, "1".toList⟩ ∈ s.delivered ∧
        ⟨"+1".toList, "REBOOT".toList, "1".toList⟩ ∈ s.published := by
  have hg : Along step Guarded (fresh ⟨"+1".toList, "REBOOT".toList, "1".toList⟩)
      publishedAgain := by decide
  have hrun : (exec step (fresh ⟨"+1".toList, "REBOOT".toList, "1".toList⟩) publishedAgain).any
      (fun s => decide (⟨"+1".toList, "REBOOT".toList, "1".toList⟩ ∈ s.delivered)) = true := by
    decide +kernel
  obtain ⟨s, hs, hd⟩ := (Option.any_eq_true _ _).1 hrun
  exact ⟨hg, s, hs, of_decide_eq_true hd, published_of_delivered hg hs (of_decide_eq_true hd)⟩

/-- **The guard is not set where its read fails.** `REBOOT` is in the slot
at the start, the baseline cannot be read, and a bump for another reason
delivers it. -/
theorem not_published_failedBaseline :
    ¬ ∀ (initial : InboundSms) (as : List DsAct) (s : DsSmsTransport),
      exec step (fresh initial) as = some s → initial ∈ s.delivered → initial ∈ s.published := by
  intro h
  have hpub := h ⟨"+1".toList, "REBOOT".toList, "1".toList⟩
    [.baseline false, .watch, .bump, .callback, .wake, .readLast true, .deliver] _ rfl (by decide)
  exact absurd hpub (by decide)

end DsSmsTransport

end ZeroTouch
