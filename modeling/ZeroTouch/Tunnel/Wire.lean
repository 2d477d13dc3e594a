import ZeroTouch.Tunnel.Agreement
/-!
# What goes over the wire

The protocol says who may send which frame, and when: a client introduces
itself, a server confirms it and opens streams under its name, and both
send the bytes of the streams that are open, their ends, and answers to
what they have read. The code keeps to it with several threads writing to
one session, each of which knows only its own part (`sends_sendable`).
-/

namespace ZeroTouch

/-! ## The protocol -/

/-- The registrations among the frames. -/
def registrations (fs : List Frame) : ℕ :=
  fs.countP fun
    | .register _ => true
    | _ => false

/-- The confirmations among the frames. -/
def confirmations (fs : List Frame) : ℕ :=
  fs.countP fun
    | .registerAck _ => true
    | _ => false

@[simp] theorem registrations_append (fs gs : List Frame) :
    registrations (fs ++ gs) = registrations fs + registrations gs := List.countP_append

@[simp] theorem confirmations_append (fs gs : List Frame) :
    confirmations (fs ++ gs) = confirmations fs + confirmations gs := List.countP_append

/-- The end of stream `n` was found, and told, among the frames. -/
def Ended (n : ℕ) (fs : List Frame) : Prop := .close n .eof ∈ fs ∨ .close n .lost ∈ fs

theorem ended_snoc {n : ℕ} {fs : List Frame} {f : Frame} :
    Ended n (fs ++ [f]) ↔ Ended n fs ∨ f = .close n .eof ∨ f = .close n .lost := by
  simp only [Ended, List.mem_append, List.mem_singleton, eq_comm (b := f)]
  tauto

/-- A client has introduced itself; a server need not. -/
def Begun (target : Side → Text) (sent : List Frame) : Side → Prop
  | .server => True
  | .client => sent.head? = some (.register (target .client))

/-- Stream `n` is open, as an end sees it that has sent and received these
frames. -/
def InUse (n : ℕ) (sent received : List Frame) : Side → Prop
  | .server => Opens n sent
  | .client => Opens n received

/-- **What an end may send**, when it has `sent` and `received` these
frames. -/
def Frame.Sendable (target : Side → Text) (side : Side) (sent received : List Frame) :
    Frame → Prop
  | .register t => side = .client ∧ sent = [] ∧ t = target .client
  | .registerAck t =>
    side = .server ∧ .register t ∈ received ∧ confirmations sent < registrations received
  | .openStream n t =>
    side = .server ∧ t = target .server ∧ .register t ∈ received ∧
      0 < n ∧ ∀ m ∈ openIds sent, m < n
  | .data n bytes =>
    Begun target sent side ∧ InUse n sent received side ∧ ¬ Ended n sent ∧
      0 < bytes.length ∧ bytes.length ≤ kChunk
  | .close n why =>
    Begun target sent side ∧ InUse n sent received side ∧
      match why with
      | .eof | .lost => ¬ Ended n sent
      | .unknown | .writeFailed => ∃ bytes, .data n bytes ∈ received
      | .dialFailed => side = .client ∧ ∀ f ∈ sent, f.stream ≠ some n
      | .mismatch => False
  | .keepalive => side = .client ∧ Begun target sent side

/-! ## The answers of the read loop -/

/-- The frame the read loop is on its way to send. -/
def ReaderPc.reply : ReaderPc → Option Frame
  | .removing t => some (.registerAck t)
  | .adding t => some (.registerAck t)
  | .writing n _ _ => some (.close n .writeFailed)
  | .erasing _ reply => reply
  | .storing _ reply => reply
  | .sending f => some f
  | _ => none

/-- A frame is an answer to one of those received. -/
def Frame.Answers (side : Side) (target : Text) (received : List Frame) : Frame → Prop
  | .registerAck t => side = .server ∧ .register t ∈ received
  | .close n why =>
    match why with
    | .unknown | .writeFailed => ∃ bytes, .data n bytes ∈ received
    | .dialFailed => side = .client
    | .mismatch => side = .client ∧ ∃ t, .openStream n t ∈ received ∧ t ≠ target
    | _ => False
  | _ => False

theorem Frame.Answers.mono {side : Side} {target : Text} {fs gs : List Frame} {f : Frame}
    (h : f.Answers side target fs) (hsub : ∀ g ∈ fs, g ∈ gs) : f.Answers side target gs := by
  cases f with
  | registerAck t => exact ⟨h.1, hsub _ h.2⟩
  | close n why =>
    cases why with
    | unknown => exact h.imp fun bytes => hsub _
    | writeFailed => exact h.imp fun bytes => hsub _
    | dialFailed => exact h
    | mismatch => exact ⟨h.1, h.2.imp fun t ht => ⟨hsub _ ht.1, ht.2⟩⟩
    | _ => exact h
  | _ => exact h

namespace Endpoint

theorem reply_afterClose (reply : Option Frame) : (afterClose reply).reply = reply := by
  cases reply <;> rfl

/-- The read loop goes on with its answer, or is done with it, or begins
one at the `switch`. -/
theorem reply_of_step {side : Side} {target : Text} {e e' : Endpoint} {a : EndpointAct}
    (h : e.step side target a = some e') :
    e'.reader.reply = e.reader.reply ∨ e'.reader.reply = none ∨
      ∃ f dialed, e.reader = .handling f ∧ e' = e.handle side target dialed f := by
  have hreturns : ∀ {ok f t e''}, Returns target e ok f t e'' →
      e''.reader.reply = e.reader.reply ∨ e''.reader.reply = none := by
    intro ok f t e'' hret
    cases hret with
    | register => exact .inr (by cases ok <;> rfl)
    | reader => exact .inr rfl
    | _ => exact .inl rfl
  have hweaken : ∀ {e'' : Endpoint},
      e''.reader.reply = e.reader.reply ∨ e''.reader.reply = none →
      e''.reader.reply = e.reader.reply ∨ e''.reader.reply = none ∨
        ∃ f dialed, e.reader = .handling f ∧ e'' = e.handle side target dialed f := by
    rintro e'' (h | h)
    · exact .inl h
    · exact .inr (.inl h)
  cases a with
  | read f =>
    simp only [step] at h
    split at h
    case h_1 => exact .inr (.inl (Option.some.inj h ▸ rfl))
    case h_2 =>
      obtain rfl := Option.some.inj h
      exact .inr (.inl (by cases side <;> rfl))
    case h_3 => cases h
  | reader dialed =>
    simp only [step, readerStep] at h
    split at h
    case h_1 f hr => exact .inr (.inr ⟨f, dialed, hr, (Option.some.inj h).symm⟩)
    case h_2 t hr => exact .inl (Option.some.inj h ▸ by rw [hr]; rfl)
    case h_3 t hr => exact .inl (Option.some.inj h ▸ by rw [hr]; rfl)
    case h_4 => exact .inr (.inl (Option.some.inj h ▸ rfl))
    case h_5 n reply hr =>
      split at h
      case h_1 =>
        obtain rfl := Option.some.inj h
        exact .inl ((reply_afterClose reply).trans (by rw [hr]; rfl))
      case h_2 => exact .inl (Option.some.inj h ▸ by rw [hr]; rfl)
    case h_6 c reply hr =>
      obtain rfl := Option.some.inj h
      exact .inl ((reply_afterClose reply).trans (by rw [hr]; rfl))
    all_goals repeat' split at h
    all_goals first
      | exact .inr (.inl (Option.some.inj h ▸ rfl))
      | cases h
  | write k =>
    simp only [step] at h
    split at h
    case h_1 n c rest hr =>
      split at h
      case isTrue => exact .inl (Option.some.inj h ▸ by rw [hr]; rfl)
      case isFalse => cases h
    case h_2 => cases h
  | writeFailed =>
    simp only [step] at h
    split at h
    case h_1 n c b rest hr => exact .inl (Option.some.inj h ▸ by rw [hr]; rfl)
    case h_2 => cases h
  | lock t =>
    simp only [step] at h
    split at h
    case h_1 f hw hs =>
      obtain rfl := Option.some.inj h
      split
      · exact .inl rfl
      · exact hweaken (hreturns (returns_of_sending hs false))
    case h_2 => cases h
  | transmit t ok =>
    simp only [step] at h
    split at h
    case h_1 f hs =>
      split at h
      case isTrue =>
        have hret := hreturns (returns_of_sending hs ok)
        exact hweaken (Option.some.inj h ▸ hret)
      case isFalse => cases h
    case h_2 => cases h
  | _ =>
    simp only [step, forwarderStep, pumpStep] at h
    repeat' split at h
    all_goals first
      | exact .inl (Option.some.inj h ▸ rfl)
      | cases h

/-- **What the read loop is on its way to send answers what it has read.** -/
def Answering (side : Side) (target : Text) (e : Endpoint) : Prop :=
  ∀ f, e.reader.reply = some f → f.Answers side target e.received

/-- An answer is begun at the frame it answers. -/
theorem answers_of_handle {side : Side} {target : Text} {e : Endpoint} {dialed : Bool}
    {f g : Frame} (hf : f ∈ e.received)
    (h : (e.handle side target dialed f).reader.reply = some g) : g.Answers side target e.received := by
  cases f with
  | register t =>
    cases side with
    | server =>
      simp only [handle] at h
      split at h
      all_goals exact Option.some.inj h ▸ ⟨rfl, hf⟩
    | client => cases h
  | openStream n t =>
    cases side with
    | server => cases h
    | client =>
      simp only [handle] at h
      split at h
      case isTrue ht => exact Option.some.inj h ▸ ⟨rfl, t, hf, ht.2⟩
      case isFalse =>
        split at h
        · cases h
        · exact Option.some.inj h ▸ rfl
  | data n bytes =>
    simp only [handle] at h
    split at h
    all_goals exact Option.some.inj h ▸ ⟨bytes, hf⟩
  | _ => cases h

theorem Answering.step {side : Side} {target : Text} {e e' : Endpoint} {a : EndpointAct}
    (he : Answering side target e) (ht : Tabled side e) (h : e.step side target a = some e') :
    Answering side target e' := by
  intro g hg
  have hmono : ∀ f ∈ e.received, f ∈ e'.received := fun f => (steps_of_step h).received_subset
  rcases reply_of_step h with hsame | hnone | ⟨f, dialed, hr, rfl⟩
  · exact (he g (hsame.symm.trans hg)).mono hmono
  · exact absurd (hnone.symm.trans hg) (by simp)
  · obtain ⟨before, hlast⟩ := ht.handling f hr
    exact (answers_of_handle (by simp [hlast]) hg).mono hmono

/-! ## The frames of the pumps -/

/-- A pump sends what one `recv` returned, and why its loop has ended. -/
def PumpFair : PumpPc → Prop
  | .sending bytes => 0 < bytes.length ∧ bytes.length ≤ kChunk
  | .exchanging why | .erasing _ why | .closing why => why = .eof ∨ why = .lost
  | _ => True

/-- A step of one pump keeps all of them fair. -/
theorem fair_update {pump : ℕ → PumpPc} (he : ∀ c, PumpFair (pump c)) {c : ℕ} (p : PumpPc)
    (hp : PumpFair p) (d : ℕ) : PumpFair (Function.update pump c p d) := by
  by_cases hd : d = c
  · rw [hd, Function.update_self]
    exact hp
  · rw [Function.update_of_ne hd]
    exact he d

theorem fair_returns {target : Text} {e e' : Endpoint} {ok : Bool} {f : Frame} {t : Thread}
    (he : ∀ c, PumpFair (e.pump c)) (h : Returns target e ok f t e') (c : ℕ) :
    PumpFair (e'.pump c) := by
  cases h with
  | data => exact fair_update he _ (by cases ok <;> simp [PumpFair]) c
  | close => exact fair_update he .done trivial c
  | _ => exact he c

theorem fair_step {side : Side} {target : Text} {e e' : Endpoint} {a : EndpointAct}
    (he : ∀ c, PumpFair (e.pump c)) (h : e.step side target a = some e') (c : ℕ) :
    PumpFair (e'.pump c) := by
  cases a with
  | recv d bytes =>
    simp only [step] at h
    split at h
    case h_1 =>
      split at h
      case isTrue hlen => exact Option.some.inj h ▸ fair_update he (.sending bytes) hlen c
      case isFalse => cases h
    case h_2 => cases h
  | recvEnd d eof =>
    simp only [step] at h
    split at h
    case h_1 =>
      have hwhy : PumpFair (.exchanging (if eof then .eof else .lost)) := by
        cases eof <;> simp [PumpFair]
      exact Option.some.inj h ▸ fair_update he _ hwhy c
    case h_2 => cases h
  | pump d =>
    have hd := he d
    simp only [step, pumpStep] at h
    split at h
    case h_1 why hp =>
      rw [hp] at hd
      exact Option.some.inj h ▸ fair_update he (.erasing _ why) hd c
    case h_2 ours why hp =>
      rw [hp] at hd
      obtain rfl := Option.some.inj h
      refine fair_update he _ ?_ c
      cases ours
      · trivial
      · exact hd
    case h_3 => cases h
  | lock t =>
    simp only [step] at h
    split at h
    case h_1 f hw hs =>
      obtain rfl := Option.some.inj h
      split
      · exact he c
      · exact fair_returns he (returns_of_sending hs false) c
    case h_2 => cases h
  | transmit t ok =>
    simp only [step] at h
    split at h
    case h_1 f hs =>
      split at h
      case isTrue =>
        have hret := fair_returns he (returns_of_sending hs ok) c
        exact Option.some.inj h ▸ hret
      case isFalse => cases h
    case h_2 => cases h
  | reader dialed =>
    simp only [step, readerStep] at h
    split at h
    case h_1 f hr =>
      obtain rfl := Option.some.inj h
      cases f <;> simp only [handle]
      all_goals repeat' split
      all_goals first
        | exact he c
        | exact fair_update he .receiving trivial c
    all_goals repeat' split at h
    all_goals first
      | exact Option.some.inj h ▸ he c
      | cases h
  | _ =>
    simp only [step, forwarderStep] at h
    repeat' split at h
    all_goals first
      | exact Option.some.inj h ▸ he c
      | exact Option.some.inj h ▸ fair_update he .unborn trivial c
      | exact Option.some.inj h ▸ fair_update he .receiving trivial c
      | cases h

/-- **An end that was found is told by the pump that found it**, as the last
it does. -/
def Finished (e : Endpoint) : Prop :=
  ∀ n, Ended n e.sent → ∃ c < e.added, e.connId c = n ∧ e.pump c = .done

theorem Finished.step {side : Side} {target : Text} {e e' : Endpoint} {a : EndpointAct}
    (he : Finished e) (ht : Tabled side e) (hp : Pumped e) (h : Steps side target e a e') :
    Finished e' := by
  intro n hn
  have hkeep : (∃ c < e.added, e.connId c = n ∧ e.pump c = .done) →
      ∃ c < e'.added, e'.connId c = n ∧ e'.pump c = .done := by
    rintro ⟨c, hc, hid, hdone⟩
    refine ⟨c, Nat.lt_of_lt_of_le hc h.added_le, ((ht.keeps h).1 c hc).trans hid, ?_⟩
    have hmove := h.pump ht c
    rw [hdone] at hmove
    generalize hq : e'.pump c = q at hmove
    cases hmove with
    | same => rfl
  have hsame : e'.sent = e.sent → ∃ c < e'.added, e'.connId c = n ∧ e'.pump c = .done :=
    fun heq => hkeep (he n (heq ▸ hn))
  cases h with
  | dropped hw ha hret => exact hsame hret.frame.1
  | @transmit t f ok e'' hw hret =>
    cases ok with
    | false => exact hsame rfl
    | true =>
      rcases ended_snoc.1 hn with hn | hf
      · exact hkeep (he n hn)
      cases hret with
      | reader hr =>
        rcases hf with rfl | rfl <;> exact absurd (hp.sending _ hr) (by simp [Frame.Plain])
      | @close c why hpump =>
        obtain rfl : e.connId c = n := by
          rcases hf with hf | hf <;> exact (Frame.close.inj hf).1
        exact ⟨c, ht.lt_added (by simp [hpump]), rfl, Function.update_self ..⟩
      | _ => rcases hf with hf | hf <;> cases hf
  | _ => exact hsame rfl

/-! ## The numbers of the streams -/

/-- **The number of a stream is above those before it.** -/
structure Rising (e : Endpoint) : Prop where
  pos : 0 < e.nextId
  sent : ∀ m ∈ openIds e.sent, m < e.nextId
  adding : ∀ n, e.forwarder = .adding n → 0 < n ∧ n < e.nextId ∧ ∀ m ∈ openIds e.sent, m < n
  opening : ∀ n c, e.forwarder = .opening n c →
    0 < n ∧ n < e.nextId ∧ ∀ m ∈ openIds e.sent, m < n

/-- What opens no stream keeps the numbers. -/
theorem Rising.snoc {e : Endpoint} (he : Rising e) {f : Frame} (hf : ∀ n t, f ≠ .openStream n t) :
    Rising { e with sent := e.sent ++ [f] } := by
  have hids : openIds (e.sent ++ [f]) = openIds e.sent := by
    rw [openIds_append, openIds_singleton hf, List.append_nil]
  exact ⟨he.pos, hids ▸ he.sent, hids ▸ he.adding, hids ▸ he.opening⟩

theorem Rising.setForwarder {e : Endpoint} (he : Rising e) {pc : ForwarderPc}
    (ha : ∀ n, pc ≠ .adding n) (ho : ∀ n c, pc ≠ .opening n c) :
    Rising { e with forwarder := pc } :=
  ⟨he.pos, he.sent, fun n h => absurd h (ha n), fun n c h => absurd h (ho n c)⟩

theorem Rising.returns {target : Text} {e e' : Endpoint} {ok : Bool} {f : Frame} {t : Thread}
    (he : Rising e) (h : Returns target e ok f t e') : Rising e' := by
  cases h with
  | forwarder => exact he.setForwarder (by cases ok <;> simp) (by cases ok <;> simp)
  | _ => exact { he with }

theorem Rising.sent_step {target : Text} {e e' : Endpoint} {f : Frame} {t : Thread} (he : Rising e)
    (hp : Pumped e) (h : Returns target e true f t e') :
    Rising { e' with sent := e.sent ++ [f] } := by
  cases h with
  | @forwarder n c hf =>
    -- the number just used is below the next
    obtain ⟨hpos, hlt, -⟩ := he.opening n c hf
    refine ⟨he.pos, fun m hm => ?_, by simp, by simp⟩
    rcases List.mem_append.1 (openIds_append .. ▸ hm) with hm | hm
    · exact he.sent m hm
    · obtain rfl : m = n := List.mem_singleton.1 hm
      exact hlt
  | reader hr =>
    refine { he.snoc (f := f) ?_ with }
    rintro n t rfl
    exact hp.sending _ hr
  | register => exact { he.snoc (f := .register target) (by simp) with }
  | keepalive => exact { he.snoc (f := .keepalive) (by simp) with }
  | @data c bytes => exact { he.snoc (f := .data (e.connId c) bytes) (by simp) with }
  | @close c why => exact { he.snoc (f := .close (e.connId c) why) (by simp) with }

theorem Rising.step {side : Side} {target : Text} {e e' : Endpoint} {a : EndpointAct}
    (he : Rising e) (hp : Pumped e) (h : Steps side target e a e') : Rising e' := by
  cases h with
  | forwarder _ hm =>
    cases hm with
    | fetched _ hpc => rcases hpc with rfl | rfl <;> exact he.setForwarder (by simp) (by simp)
    | _ => exact he.setForwarder (by simp) (by simp)
  | allocate =>
    refine ⟨Nat.succ_pos _, fun m hm => Nat.lt_succ_of_lt (he.sent m hm), fun n hn => ?_, by simp⟩
    obtain rfl := ForwarderPc.adding.inj hn
    exact ⟨he.pos, Nat.lt_succ_self _, he.sent⟩
  | add _ hf =>
    refine ⟨he.pos, he.sent, by simp, fun n c hn => ?_⟩
    obtain ⟨rfl, -⟩ := ForwarderPc.opening.inj hn
    exact he.adding _ hf
  | spawn => exact { he.setForwarder  (by simp) (by simp) with }
  | forwarderErase => exact { he.setForwarder  (by simp) (by simp) with }
  | forwarderStore => exact { he.setForwarder  (by simp) (by simp) with }
  | dropped _ _ hret => exact he.returns hret
  | transmit _ hret =>
    refine hret.transmitted (fun hret => ?_) fun hret => ?_
    · exact { he.sent_step hp hret with }
    · exact { he.returns hret with }
  | _ => exact { he with }

/-! ## Confirmations -/

/-- The confirmations the read loop is about to make. -/
def confirming : ReaderPc → ℕ
  | .handling (.register _) => 1
  | .removing _ => 1
  | .adding _ => 1
  | .sending (.registerAck _) => 1
  | _ => 0

/-- **A registration is confirmed once.** -/
def Confirmed (e : Endpoint) : Prop :=
  confirmations e.sent + confirming e.reader ≤ registrations e.received

theorem ReaderMoves.confirming_le {side : Side} {e : Endpoint} {r : ReaderPc} (hk : Known side e)
    (h : ReaderMoves side e r) : confirming r ≤ confirming e.reader := by
  cases h with
  | ended => cases side <;> exact Nat.zero_le _
  | asked hr hr' => rcases hr' with rfl | rfl <;> rw [hr] <;> exact Nat.le_refl 1
  | removed hr => rw [hr]; exact Nat.le_refl 1
  | registered hr => rw [hr]; exact Nat.le_refl 1
  | @gone n reply hr =>
    cases reply with
    | none => exact Nat.zero_le _
    | some f => exact hk.erasing n f hr ▸ Nat.zero_le _
  | _ => exact Nat.zero_le _

/-- A write takes a confirmation from the read loop to the record. -/
theorem Confirmed.transmitted {target : Text} {e e' : Endpoint} {ok : Bool} {f : Frame} {t : Thread}
    (he : Confirmed e) (h : Returns target e ok f t e') :
    confirmations (e.sent ++ [f]) + confirming e'.reader ≤ registrations e'.received := by
  have hbound : confirmations e.sent + confirming e.reader ≤ registrations e.received := he
  rw [confirmations_append]
  cases h with
  | register => cases ok <;> exact Nat.le_trans (Nat.le_add_right _ _) hbound
  | @reader f hr =>
    rw [hr] at hbound
    cases f with
    | registerAck => exact hbound
    | _ => exact Nat.le_trans (Nat.le_add_right _ _) hbound
  | _ => exact hbound

theorem Confirmed.step {side : Side} {target : Text} {e e' : Endpoint} {a : EndpointAct}
    (he : Confirmed e) (hk : Known side e) (h : Steps side target e a e') : Confirmed e' := by
  have hbound : confirmations e.sent + confirming e.reader ≤ registrations e.received := he
  have hidle : confirmations e.sent + 0 ≤ registrations e.received :=
    Nat.le_trans (Nat.le_add_right _ _) hbound
  cases h with
  | @read f hr =>
    show confirmations e.sent + confirming (.handling f) ≤ registrations (e.received ++ [f])
    rw [registrations_append]
    cases f with
    | register => exact Nat.add_le_add_right hidle 1
    | _ => exact hidle
  | moves reg t hm => exact Nat.le_trans (Nat.add_le_add_left (hm.confirming_le hk) _) hbound
  | dialed => exact hidle
  | write => exact hidle
  | erase => exact hidle
  | @store _ c reply hr =>
    cases reply with
    | none => exact hidle
    | some f =>
      obtain rfl := (hk.storing c _ hr).2 f rfl
      exact hidle
  | stop => exact hidle
  | abort => exact hidle
  | swap => exact hidle
  | sweep => exact hidle
  | dropped _ _ hret =>
    cases hret with
    | register => exact hidle
    | reader => exact hidle
    | _ => exact hbound
  | @transmit t f ok e'' _ hret =>
    cases ok with
    | true =>
      have hsent := he.transmitted hret
      exact hsent
    | false =>
      cases hret with
      | register => exact hidle
      | reader => exact hidle
      | _ => exact hbound
  | _ => exact hbound

/-! ## The introduction of a client -/

/-- **A client introduces itself before all else.** -/
inductive Led (name : Text) (e : Endpoint) : Prop
  | introduced : e.sent.head? = some (.register name) → e.reader ≠ .registering → Led name e
  | silent : e.sent = [] → e.reader = .registering ∨ e.reader = .aborting ∨ e.reader = .finished →
      e.keepalive = .stopped → e.added = 0 → Led name e

/-- Nothing leads back to the introduction. -/
theorem Steps.registering {side : Side} {target : Text} {e e' : Endpoint} {a : EndpointAct}
    (h : Steps side target e a e') (hr : e'.reader = .registering) : e.reader = .registering := by
  cases h with
  | moves _ _ hm =>
    have hm : ReaderMoves side e .registering := hr ▸ hm
    generalize hstart : ReaderPc.registering = r at hm
    cases hm with
    | ended => cases side <;> cases hstart
    | asked _ hr' => rcases hr' with rfl | rfl <;> cases hstart
    | @gone _ reply => cases reply <;> cases hstart
    | _ => cases hstart
  | @store _ c reply => cases reply <;> cases hr
  | read => cases hr
  | dialed => cases hr
  | write => cases hr
  | erase => cases hr
  | stop => cases hr
  | abort => cases hr
  | swap => cases hr
  | sweep => cases hr
  | dropped _ _ hret =>
    cases hret with
    | register => cases hr
    | reader => cases hr
    | _ => exact hr
  | @transmit t g ok e'' _ hret =>
    cases hret with
    | register => cases ok <;> cases hr
    | reader => cases hr
    | _ => exact hr
  | _ => exact hr

theorem Led.step {name : Text} {e e' : Endpoint} {a : EndpointAct} (he : Led name e)
    (ht : Tabled .client e) (h : Steps .client name e a e') : Led name e' := by
  cases he with
  | introduced hhead hr =>
    refine .introduced ?_ fun hr' => hr (h.registering hr')
    rcases h.sends with heq | ⟨f, t, e'', -, -, -, heq⟩
    · rw [heq]
      exact hhead
    · rw [heq, List.head?_append, hhead]
      rfl
  | silent hsent hr hk hadded =>
    have hpump : ∀ {c p}, e.pump c = p → p ≠ .unborn → False := by
      rintro c p rfl hp
      exact absurd (ht.lt_added hp) (by simp [hadded])
    have hother :
        ∀ {r}, e.reader = r → r ≠ .registering → r ≠ .aborting → r ≠ .finished → False := by
      rintro r rfl h₁ h₂ h₃
      rcases hr with hr | hr | hr
      · exact h₁ hr
      · exact h₂ hr
      · exact h₃ hr
    cases h with
    | read h => exact (hother h (by simp) (by simp) (by simp)).elim
    | moves _ _ hm => cases hm <;> exact (hother ‹_› (by simp) (by simp) (by simp)).elim
    | dialed _ h => exact (hother h (by simp) (by simp) (by simp)).elim
    | write h => exact (hother h (by simp) (by simp) (by simp)).elim
    | erase h => exact (hother h (by simp) (by simp) (by simp)).elim
    | store h => exact (hother h (by simp) (by simp) (by simp)).elim
    | stop h => exact (hother h (by simp) (by simp) (by simp)).elim
    | abort h => exact .silent hsent (.inr (.inr rfl)) hk hadded
    | swap h => exact (hother h (by simp) (by simp) (by simp)).elim
    | sweep h => exact (hother h (by simp) (by simp) (by simp)).elim
    | recv h => exact (hpump h (by simp)).elim
    | recvEnd h => exact (hpump h (by simp)).elim
    | exchange h => exact (hpump h (by simp)).elim
    | pumpErase h => exact (hpump h (by simp)).elim
    | beat h => exact absurd (hk.symm.trans h) (by simp)
    | lock => exact .silent hsent hr hk hadded
    | others => exact .silent hsent hr hk hadded
    | dropped _ _ hret =>
      cases hret with
      | register => exact .silent hsent (.inr (.inl rfl)) rfl hadded
      | reader h => exact (hother h (by simp) (by simp) (by simp)).elim
      | forwarder h => exact absurd ((ht.client rfl).1.symm.trans h) (by simp)
      | keepalive h => exact absurd (hk.symm.trans h) (by simp)
      | data h => exact (hpump h (by simp)).elim
      | close h => exact (hpump h (by simp)).elim
    | @transmit t f ok e'' _ hret =>
      cases hret with
      | register =>
        cases ok with
        | true => exact .introduced (by simp [hsent]) (by simp)
        | false => exact .silent hsent (.inr (.inl rfl)) rfl hadded
      | reader h => exact (hother h (by simp) (by simp) (by simp)).elim
      | forwarder h => exact absurd ((ht.client rfl).1.symm.trans h) (by simp)
      | keepalive h => exact absurd (hk.symm.trans h) (by simp)
      | data h => exact (hpump h (by simp)).elim
      | close h => exact (hpump h (by simp)).elim
    | forwarder hside => cases hside
    | allocate hside => cases hside
    | add hside => cases hside
    | spawn hside => cases hside
    | forwarderErase hside => cases hside
    | forwarderStore hside => cases hside

/-- **A client that refuses a stream has said nothing about it.** -/
def Refusing (e : Endpoint) : Prop :=
  ∀ n, e.reader = .sending (.close n .dialFailed) → e.Fresh n ∧ ∀ f ∈ e.sent, f.stream ≠ some n

theorem Refusing.step {target : Text} {e e' : Endpoint} {a : EndpointAct} (he : Refusing e)
    (ht : Tabled .client e) (hk : Known .client e) (h : Steps .client target e a e') :
    Refusing e' := by
  intro n hr
  -- what another thread sends meanwhile is about a stream that has a connection
  have hsnoc : ∀ {g : Frame}, e.reader = .sending (.close n .dialFailed) →
      (∀ m, g.stream = some m → ∃ c < e.added, e.connId c = m) →
      e.Fresh n ∧ ∀ f ∈ e.sent ++ [g], f.stream ≠ some n := by
    intro g hr hg
    obtain ⟨hfresh, hsent⟩ := he n hr
    refine ⟨hfresh, fun f hf hs => ?_⟩
    rcases List.mem_append.1 hf with hf | hf
    · exact hsent f hf hs
    · obtain rfl := List.mem_singleton.1 hf
      obtain ⟨c, hc, hid⟩ := hg n hs
      exact hfresh c hc hid
  cases h with
  | moves reg t hm =>
    have hm : ReaderMoves .client e (.sending (.close n .dialFailed)) := hr ▸ hm
    generalize hstart : ReaderPc.sending (.close n .dialFailed) = r at hm
    cases hm with
    | asked _ hr' => rcases hr' with rfl | rfl <;> cases hstart
    | @gone m reply hr' =>
      cases reply with
      | none => cases hstart
      | some f =>
        obtain rfl := hk.erasing m f hr'
        cases hstart
    | @refused m t' why hr' =>
      obtain ⟨rfl, -⟩ := Frame.close.inj (ReaderPc.sending.inj hstart)
      exact ⟨(ht.client rfl).2.2 n t' hr', (hk.client rfl).2.2 n t' hr'⟩
    | _ => cases hstart
  | @store _ c reply hr' =>
    cases reply with
    | none => cases hr
    | some f =>
      obtain rfl := (hk.storing c _ hr').2 f rfl
      cases hr
  | read => cases hr
  | dialed => cases hr
  | write => cases hr
  | erase => cases hr
  | stop => cases hr
  | abort => cases hr
  | swap => cases hr
  | sweep => cases hr
  | add hside => cases hside
  | dropped _ _ hret =>
    cases hret with
    | register => cases hr
    | reader => cases hr
    | _ => exact he n hr
  | @transmit t f ok e'' _ hret =>
    cases ok with
    | false =>
      cases hret with
      | register => cases hr
      | reader => cases hr
      | _ => exact he n hr
    | true =>
      cases hret with
      | register => cases hr
      | reader => cases hr
      | forwarder hf => exact absurd ((ht.client rfl).1.symm.trans hf) (by simp)
      | keepalive => exact hsnoc (g := .keepalive) hr (by simp [Frame.stream])
      | @data c bytes hp =>
        exact hsnoc (g := .data (e.connId c) bytes) hr fun m hm =>
          ⟨c, ht.lt_added (by simp [hp]), Option.some.inj hm⟩
      | @close c why hp =>
        exact hsnoc (g := .close (e.connId c) why) hr fun m hm =>
          ⟨c, ht.lt_added (by simp [hp]), Option.some.inj hm⟩
  | _ => exact he n hr

/-! ## What one end sends -/

/-- **What an end keeps of the protocol.** -/
structure Lawful (side : Side) (target : Text) (e : Endpoint) : Prop where
  answering : Answering side target e
  fair : ∀ c, PumpFair (e.pump c)
  finished : Finished e
  rising : Rising e
  confirmed : Confirmed e
  led : side = .client → Led target e
  refusing : side = .client → Refusing e
  beating : side = .server → e.keepalive = .stopped ∧ e.reader ≠ .registering

theorem beating_step {target : Text} {e e' : Endpoint} {a : EndpointAct}
    (he : e.keepalive = .stopped ∧ e.reader ≠ .registering) (h : Steps .server target e a e') :
    e'.keepalive = .stopped ∧ e'.reader ≠ .registering := by
  refine ⟨?_, fun hr => he.2 (h.registering hr)⟩
  cases h with
  | beat hk => exact absurd (he.1.symm.trans hk) (by simp)
  | dropped _ _ hret =>
    cases hret with
    | register hr => exact absurd hr he.2
    | keepalive hk => exact absurd (he.1.symm.trans hk) (by simp)
    | _ => exact he.1
  | transmit _ hret =>
    cases hret with
    | register hr => exact absurd hr he.2
    | keepalive hk => exact absurd (he.1.symm.trans hk) (by simp)
    | _ => exact he.1
  | _ => exact he.1

theorem Lawful.step {side : Side} {target : Text} {e e' : Endpoint} {a : EndpointAct}
    (he : Lawful side target e) (ht : Tabled side e) (hp : Pumped e) (hk : Known side e)
    (h : e.step side target a = some e') : Lawful side target e' where
  answering := he.answering.step ht h
  fair := fair_step he.fair h
  finished := he.finished.step ht hp (steps_of_step h)
  rising := he.rising.step hp (steps_of_step h)
  confirmed := he.confirmed.step hk (steps_of_step h)
  led := by
    rintro rfl
    exact (he.led rfl).step ht (steps_of_step h)
  refusing := by
    rintro rfl
    exact (he.refusing rfl).step ht hk (steps_of_step h)
  beating := by
    rintro rfl
    exact beating_step (he.beating rfl) (steps_of_step h)

end Endpoint

namespace Tunnel

/-! ## Both ends -/

/-- **Both ends keep to the protocol.** -/
structure Conforming (target : Side → Text) (net : Tunnel) : Prop extends Polite net where
  introduced : Endpoint.Introduced (target .client) net.client
  served : Endpoint.Served (target .server) (target .client) net.server
  lawful : ∀ side, Endpoint.Lawful side (target side) (net.endpoint side)

variable {target : Side → Text} {net net' : Tunnel}

/-- A name the server is given is the client's, and the first it is given. -/
theorem Conforming.first (hn : Conforming target net) {t : Text}
    (h : net.delivers .server (.read (some (.register t)))) :
    net.server.received = [] ∧ t = target .client := by
  obtain ⟨rest, hsplit⟩ := hn.split h
  exact hn.introduced.first _ t rest hsplit

theorem Conforming.step (hn : Conforming target net) {side : Side} {a : EndpointAct}
    (h : net.step target (side, a) = some net') : Conforming target net' := by
  have hpolite := hn.toPolite.step h
  simp only [Tunnel.step] at h
  split at h
  case isFalse => cases h
  case isTrue hdel =>
    obtain ⟨e, he, rfl⟩ := Option.map_eq_some_iff.1 h
    have hlawful : Endpoint.Lawful side (target side) e :=
      (hn.lawful side).step (hn.tabled side) (hn.pumped side) (hn.known side) he
    have hall : ∀ s, Endpoint.Lawful s (target s) ((net.set side e).endpoint s) :=
      forall_set (P := fun s => Endpoint.Lawful s (target s)) hlawful hn.lawful
    cases side with
    | server =>
      refine { hpolite with introduced := hn.introduced, served := ?_, lawful := hall }
      refine hn.served.step (hn.pumped .server) he ?_
      rintro t rfl
      exact hn.first hdel
    | client =>
      refine { hpolite with introduced := ?_, served := hn.served, lawful := hall }
      exact hn.introduced.step (hn.tabled .client) (hn.known .client) (Endpoint.steps_of_step he)

/-- A server opens streams where it was given their name. -/
theorem Conforming.registered (hn : Conforming target net)
    (hf : Endpoint.InHand net.server.forwarder) :
    .register (target .server) ∈ net.server.received := by
  obtain ⟨hname, ⟨t, hmem⟩, -⟩ := hn.served.inHand hf
  obtain ⟨before, rest, hsplit⟩ := List.append_of_mem ((hn.fifo .server).subset hmem)
  obtain ⟨-, rfl⟩ := hn.introduced.first before t rest hsplit
  rwa [hname]

/-- A client is asked for streams under its own name. -/
theorem Conforming.asked (hn : Conforming target net) {n : ℕ} {t : Text}
    (h : .openStream n t ∈ net.client.received) : t = target .client := by
  obtain ⟨rfl, hname, -⟩ := hn.served.opened n t ((hn.fifo .client).subset h)
  exact hname

end Tunnel

end ZeroTouch
