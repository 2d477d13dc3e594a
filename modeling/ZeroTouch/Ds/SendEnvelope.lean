import ZeroTouch.Common.Run
import ZeroTouch.Common.Text
/-!
# Replies over the data store

`DsSmsTransport::send` and the cellular-client at the other end, as a
system of steps: a send writes `sms.send.to` and `sms.send.text` in one
set and bumps `sms.send.request` in the next, a change of the token queues
an event, and for each event cellular-client reads the two keys and
transmits what it has read.

The keys hold one reply and the token is the clock in milliseconds, so a
reply that is written while the one before it has not been read replaces
it, and one whose token is the token that is there is not announced. What
is transmitted is what was sent exactly in the runs where neither happens
(`transmitted_eq_sent_iff`).
-/

namespace ZeroTouch

/-- `is_reachable_sender`: seven digits or more, and nothing else but `+`,
spaces and dashes. -/
def isReachableSender (sender : Text) : Bool :=
  sender.all (fun c => c.isDigit || c = '+' || c = ' ' || c = '-') &&
    decide (7 ≤ sender.countP Char.isDigit)

/-- A reply: to whom, and the text. -/
abbrev SmsReply : Type := Text × Text

/-- **The envelope and its two ends.** -/
structure SendEnvelope where
  /-- `sms.send.to` and `sms.send.text`. -/
  payload : SmsReply
  /-- `sms.send.request`. -/
  request : Text
  /-- The reply of a `send` that is between its two sets. -/
  sending : Option SmsReply := none
  /-- Changes of the token queued and not yet taken by cellular-client. -/
  events : ℕ := 0
  /-- cellular-client has taken one and not yet read the keys. -/
  woken : Bool := false
  /-- The replies of the sends that returned true. -/
  sent : List SmsReply := []
  transmitted : List SmsReply := []
  deriving DecidableEq, Repr

/-- A step of the transport or of cellular-client. A set that fails leaves
the store as it was, and the send returns false. -/
inductive SendAct
  /-- `send`, up to the first set, and whether that is ok. -/
  | payload (dest text : Text) (ok : Bool)
  /-- The second set, at this time in milliseconds. -/
  | request (nowMs : ℕ) (ok : Bool)
  /-- cellular-client takes a change of the token. -/
  | notify
  /-- It reads the keys and transmits. -/
  | read
  deriving DecidableEq, Repr

namespace SendEnvelope

/-- One step. -/
def step (s : SendEnvelope) : SendAct → Option SendEnvelope
  | .payload dest text ok =>
    match s.sending with
    | some _ => none
    | none =>
      some (if isReachableSender dest && ok then
        { s with payload := (dest, text), sending := some (dest, text) }
      else s)
  | .request nowMs ok =>
    match s.sending with
    | none => none
    | some reply =>
      let token := Text.ofInt nowMs
      some (if ok then
        { s with
          request := token, sending := none, sent := s.sent ++ [reply],
          -- only a change of the value is an event
          events := if token = s.request then s.events else s.events + 1 }
      else { s with sending := none })
  | .notify =>
    match s.woken, s.events with
    | false, events + 1 => some { s with events := events, woken := true }
    | _, _ => none
  | .read =>
    if s.woken then
      some { s with woken := false, transmitted := s.transmitted ++ [s.payload] }
    else none

/-- The envelope before the first send. -/
def fresh (payload : SmsReply) (request : Text) : SendEnvelope :=
  { payload := payload, request := request }

/-- The announcements cellular-client has yet to read the keys for. -/
def pending (s : SendEnvelope) : ℕ := s.events + s.woken.toNat

/-- Nothing is under way on either side. -/
def Quiescent (s : SendEnvelope) : Prop := s.sending = none ∧ s.pending = 0

/-- The step is of a send to a reachable sender that returns true, or of
cellular-client. -/
def Accepted : SendAct → Prop
  | .payload dest _ ok => isReachableSender dest = true ∧ ok = true
  | .request _ ok => ok = true
  | _ => True

/-- **The reply is kept apart from the one before it**: its payload is
written when that has been read, or is the same, and its token is not the
one that is there. -/
def Apart (s : SendEnvelope) : SendAct → Prop
  | .payload dest text _ => s.pending = 0 ∨ s.payload = (dest, text)
  | .request nowMs _ => Text.ofInt nowMs ≠ s.request
  | _ => True

/-- **What a step can do.** -/
inductive Steps (s : SendEnvelope) : SendAct → SendEnvelope → Prop
  | refused {dest text : Text} {ok : Bool} : s.sending = none →
      ¬ (isReachableSender dest = true ∧ ok = true) → Steps s (.payload dest text ok) s
  | payload {dest text : Text} : s.sending = none → isReachableSender dest = true →
      Steps s (.payload dest text true)
        { s with payload := (dest, text), sending := some (dest, text) }
  | failed {reply : SmsReply} {nowMs : ℕ} : s.sending = some reply →
      Steps s (.request nowMs false) { s with sending := none }
  | silent {reply : SmsReply} {nowMs : ℕ} : s.sending = some reply →
      Text.ofInt nowMs = s.request →
      Steps s (.request nowMs true)
        { s with request := Text.ofInt nowMs, sending := none, sent := s.sent ++ [reply] }
  | request {reply : SmsReply} {nowMs : ℕ} : s.sending = some reply →
      Text.ofInt nowMs ≠ s.request →
      Steps s (.request nowMs true)
        { s with
          request := Text.ofInt nowMs, sending := none, sent := s.sent ++ [reply],
          events := s.events + 1 }
  | notify {events : ℕ} : s.woken = false → s.events = events + 1 →
      Steps s .notify { s with events := events, woken := true }
  | read : s.woken = true →
      Steps s .read { s with woken := false, transmitted := s.transmitted ++ [s.payload] }

theorem steps_of_step {s t : SendEnvelope} {a : SendAct} (h : s.step a = some t) :
    Steps s a t := by
  cases a with
  | payload dest text ok =>
    simp only [step] at h
    split at h
    · cases h
    · next hsending =>
      by_cases hok : isReachableSender dest = true ∧ ok = true
      · obtain ⟨hreach, rfl⟩ := hok
        rw [if_pos (by simp [hreach])] at h
        exact Option.some.inj h ▸ .payload hsending hreach
      · rw [if_neg (by simpa using hok)] at h
        exact Option.some.inj h ▸ .refused hsending hok
  | request nowMs ok =>
    simp only [step] at h
    split at h
    · cases h
    · next reply hsending =>
      cases ok with
      | false => exact Option.some.inj h ▸ .failed hsending
      | true =>
        by_cases htoken : Text.ofInt nowMs = s.request
        · simp only [htoken, if_true] at h
          rw [← htoken] at h
          exact Option.some.inj h ▸ .silent hsending htoken
        · simp only [htoken, if_true, if_false] at h
          exact Option.some.inj h ▸ .request hsending htoken
  | notify =>
    simp only [step] at h
    split at h
    · next events hwoken hevents => exact Option.some.inj h ▸ .notify hwoken hevents
    · cases h
  | read =>
    simp only [step] at h
    split at h
    · next hwoken => exact Option.some.inj h ▸ .read hwoken
    · cases h

/-! ## What is owed -/

/-- **Every announcement will transmit what it announced**: what was sent
and not transmitted is what the keys hold, once for each announcement. -/
def Kept (s : SendEnvelope) : Prop :=
  s.sent = s.transmitted ++ List.replicate s.pending s.payload

/-- The keys hold the reply that is being sent, or else the last one that
was, and there is no announcement without a send. -/
structure Sound (s : SendEnvelope) : Prop where
  sending : ∀ reply, s.sending = some reply → s.payload = reply
  last : s.sending = none → ∀ reply, s.sent.getLast? = some reply → s.payload = reply
  count : s.transmitted.length + s.pending ≤ s.sent.length

variable {s t : SendEnvelope} {a : SendAct}

theorem pending_notify {events : ℕ} (hwoken : s.woken = false) (hevents : s.events = events + 1) :
    ({ s with events := events, woken := true } : SendEnvelope).pending = s.pending := by
  simp only [pending, hwoken, hevents, Bool.toNat_true, Bool.toNat_false]

theorem pending_read (hwoken : s.woken = true) (transmitted : List SmsReply) :
    s.pending =
      ({ s with woken := false, transmitted := transmitted } : SendEnvelope).pending + 1 := by
  simp only [pending, hwoken, Bool.toNat_true, Bool.toNat_false]

/-- A send that comes to its end keeps the keys sound, announced or not. -/
theorem Sound.sends {reply : SmsReply} (hs : Sound s) (hsending : s.sending = some reply)
    (token : Text) {events : ℕ} (hevents : events ≤ s.events + 1) :
    Sound { s with
      request := token, sending := none, sent := s.sent ++ [reply], events := events } := by
  refine ⟨fun r hr => ?_, fun _ r hr => ?_, ?_⟩
  · cases hr
  · rw [List.getLast?_concat] at hr
    exact (hs.sending reply hsending).trans (Option.some.inj hr)
  · have hcount := hs.count
    simp only [pending, List.length_append, List.length_singleton] at hcount ⊢
    omega

/-- A step of an accepted send, or of cellular-client, keeps the keys
sound. -/
theorem Sound.step (hs : Sound s) (ha : Accepted a) (h : s.step a = some t) : Sound t := by
  cases steps_of_step h with
  | refused => exact hs
  | payload hsending hreach =>
    refine ⟨fun reply hr => Option.some.inj hr, fun hr => ?_, hs.count⟩
    cases hr
  | failed => cases ha
  | silent hsending htoken => exact hs.sends hsending _ (Nat.le_succ _)
  | request hsending htoken => exact hs.sends hsending _ (le_refl _)
  | notify hwoken hevents =>
    refine ⟨hs.sending, hs.last, ?_⟩
    rw [pending_notify hwoken hevents]
    exact hs.count
  | read hwoken =>
    refine ⟨hs.sending, hs.last, ?_⟩
    have hcount := hs.count
    rw [pending_read hwoken (s.transmitted ++ [s.payload])] at hcount
    simp only [List.length_append, List.length_singleton]
    omega

/-- **A reply kept apart is kept.** -/
theorem Kept.step (hs : Sound s) (hk : Kept s) (hap : Apart s a) (h : s.step a = some t) :
    Kept t := by
  unfold Kept at hk ⊢
  cases steps_of_step h with
  | refused => exact hk
  | payload hsending hreach =>
    rcases hap with hnone | hsame
    · show s.sent = s.transmitted ++ List.replicate s.pending _
      rw [hk, hnone]
      rfl
    · show s.sent = s.transmitted ++ List.replicate s.pending _
      rw [hk, hsame]
  | failed => exact hk
  | silent hsending htoken => exact absurd htoken hap
  | request hsending htoken =>
    have hpending : s.events + 1 + s.woken.toNat = s.pending + 1 := by
      unfold pending
      omega
    simp only [hk, ← hs.sending _ hsending, pending, hpending, List.replicate_succ',
      List.append_assoc]
  | notify hwoken hevents =>
    rw [pending_notify hwoken hevents]
    exact hk
  | read hwoken =>
    rw [pending_read hwoken (s.transmitted ++ [s.payload]), List.replicate_succ] at hk
    simpa using hk

/-- **And one that is not never will be**: an accepted step keeps nothing
that was not kept and apart before it. -/
theorem Kept.of_step (hs : Sound s) (ha : Accepted a) (h : s.step a = some t) (hk : Kept t) :
    Kept s ∧ Apart s a := by
  unfold Kept at hk ⊢
  cases steps_of_step h with
  | refused hsending hno => exact absurd ha hno
  | @payload dest text hsending hreach =>
    change s.sent = s.transmitted ++ List.replicate s.pending (dest, text) at hk
    cases hpending : s.pending with
    | zero =>
      rw [hpending] at hk
      exact ⟨hk, .inl hpending⟩
    | succ n =>
      -- something is owed, and what was owed last is what the keys held
      have hlast : s.sent.getLast? = some (dest, text) := by
        rw [hk, hpending, List.replicate_succ', ← List.append_assoc, List.getLast?_concat]
      have hsame : s.payload = (dest, text) := hs.last hsending _ hlast
      exact ⟨by rw [hsame, ← hpending]; exact hk, .inr hsame⟩
  | failed => cases ha
  | silent hsending htoken =>
    -- one more was sent, and no more was announced
    have hlength := congrArg List.length hk
    have hcount := hs.count
    simp only [pending, List.length_append, List.length_singleton, List.length_replicate]
      at hlength hcount
    omega
  | @request reply nowMs hsending htoken =>
    have hpending : s.events + 1 + s.woken.toNat = s.pending + 1 := by
      unfold pending
      omega
    simp only [pending, hpending, List.replicate_succ', ← List.append_assoc] at hk
    exact ⟨(List.append_inj' hk rfl).1, htoken⟩
  | notify hwoken hevents =>
    rw [pending_notify hwoken hevents] at hk
    exact ⟨hk, trivial⟩
  | read hwoken =>
    refine ⟨?_, trivial⟩
    rw [pending_read hwoken (s.transmitted ++ [s.payload]), List.replicate_succ]
    simpa using hk

/-! ## Whole runs -/

/-- Everything that was sent is transmitted when nothing is owed. -/
theorem kept_iff_of_quiescent (hq : s.Quiescent) : Kept s ↔ s.transmitted = s.sent := by
  rw [Kept, hq.2, List.replicate_zero, List.append_nil, eq_comm]

/-- **A run keeps its replies exactly where it keeps them apart.** -/
theorem kept_iff_along {as : List SendAct} (hs : Sound s) (hacc : ∀ a ∈ as, Accepted a)
    (h : exec step s as = some t) : Kept t ↔ Kept s ∧ Along step Apart s as := by
  induction as generalizing s with
  | nil =>
    obtain rfl : s = t := Option.some.inj h
    exact (and_iff_left trivial).symm
  | cons a as ih =>
    obtain ⟨r, hr, h⟩ := exec_cons.1 h
    have ha : Accepted a := hacc a (List.mem_cons_self ..)
    rw [ih (hs.step ha hr) (fun b hb => hacc b (List.mem_cons_of_mem _ hb)) h, along_cons]
    constructor
    · rintro ⟨hkr, halong⟩
      obtain ⟨hks, hap⟩ := hkr.of_step hs ha hr
      exact ⟨hks, hap, fun r' hr' => Option.some.inj (hr.symm.trans hr') ▸ halong⟩
    · rintro ⟨hks, hap, halong⟩
      exact ⟨hks.step hs hap hr, halong r hr⟩

theorem sound_fresh (payload : SmsReply) (request : Text) : Sound (fresh payload request) := by
  refine ⟨fun reply hr => ?_, fun _ reply hr => ?_, le_refl _⟩
  · cases hr
  · cases hr

/-- **When no reply is lost.** In a run of sends that return true, with
cellular-client's steps anywhere between theirs, what was transmitted when
everything has come to rest is what was sent, each once and in order,
exactly where every reply was kept apart from the one before it. -/
theorem transmitted_eq_sent_iff {payload : SmsReply} {request : Text} {as : List SendAct}
    (hacc : ∀ a ∈ as, Accepted a) (h : exec step (fresh payload request) as = some s)
    (hq : s.Quiescent) :
    s.transmitted = s.sent ↔ Along step Apart (fresh payload request) as := by
  rw [← kept_iff_of_quiescent hq, kept_iff_along (sound_fresh payload request) hacc h]
  exact and_iff_right rfl

instance decidableApart (s : SendEnvelope) : ∀ a : SendAct, Decidable (Apart s a)
  | .payload dest text _ => inferInstanceAs (Decidable (s.pending = 0 ∨ s.payload = (dest, text)))
  | .request nowMs _ => inferInstanceAs (Decidable (Text.ofInt nowMs ≠ s.request))
  | .notify => inferInstanceAs (Decidable True)
  | .read => inferInstanceAs (Decidable True)

instance decidableAccepted : ∀ a : SendAct, Decidable (Accepted a)
  | .payload dest _ ok => inferInstanceAs (Decidable (isReachableSender dest = true ∧ ok = true))
  | .request _ ok => inferInstanceAs (Decidable (ok = true))
  | .notify => inferInstanceAs (Decidable True)
  | .read => inferInstanceAs (Decidable True)

/-- Two replies, the second behind the transmission of the first. -/
def apartReplies : List SendAct :=
  [.payload "+14155550123".toList "OK".toList true, .request 1000 true, .notify, .read,
    .payload "+14155550199".toList "ERR".toList true, .request 1001 true, .notify, .read]

/-- What they leave. -/
def apartEnd : SendEnvelope where
  payload := ("+14155550199".toList, "ERR".toList)
  request := "1001".toList
  sent := [("+14155550123".toList, "OK".toList), ("+14155550199".toList, "ERR".toList)]
  transmitted := [("+14155550123".toList, "OK".toList), ("+14155550199".toList, "ERR".toList)]

theorem transmitted_eq_sent_apartReplies :
    Along step Apart (fresh ([], []) []) apartReplies ∧ apartEnd.transmitted = apartEnd.sent :=
  have hap : Along step Apart (fresh ([], []) []) apartReplies := by decide +kernel
  ⟨hap, (transmitted_eq_sent_iff (by decide) (by decide +kernel) ⟨rfl, rfl⟩).2 hap⟩

/-- Two replies before cellular-client has read the first. -/
def overwrittenReplies : List SendAct :=
  [.payload "+14155550123".toList "OK".toList true, .request 1000 true,
    .payload "+14155550199".toList "ERR".toList true, .request 1001 true,
    .notify, .read, .notify, .read]

/-- **The second reply goes out twice, the first never**, though both sends
returned true. -/
theorem not_transmitted_eq_sent_overwritten :
    ¬ ∀ (as : List SendAct) (s : SendEnvelope), (∀ a ∈ as, Accepted a) →
      exec step (fresh ([], []) []) as = some s → s.Quiescent → s.transmitted = s.sent := by
  intro h
  have hrun : exec step (fresh ([], []) []) overwrittenReplies =
      some { apartEnd with
        transmitted := [("+14155550199".toList, "ERR".toList),
          ("+14155550199".toList, "ERR".toList)] } := by
    decide +kernel
  exact absurd (h _ _ (by decide) hrun ⟨rfl, rfl⟩) (by decide)

end SendEnvelope

end ZeroTouch
