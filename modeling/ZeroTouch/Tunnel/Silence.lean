import ZeroTouch.Tunnel.Ownership
import ZeroTouch.Tunnel.Streams
/-!
# Silence after a `CLOSE`

A read loop that reads a `CLOSE` takes the stream out of the table, sets
the connection's flag and shuts its socket down, and nothing more is to be
sent of the stream. The flag does not stop a pump that has bytes in hand, or
that has found the end of its socket and is about to say so, and a socket
that was shut down still gives what it had received
(`not_silent_after_close`). Where no pump is caught like that, the end is
silent (`silent_after_close`): it only answers `DATA` that was under way.
-/

namespace ZeroTouch

/-- The pump has a frame to send. -/
def PumpPc.speaks : PumpPc → Bool
  | .sending _ => true
  | .erasing ours _ => ours
  | .closing _ => true
  | _ => false

/-- The read loop is not about to say anything of stream `n`, but that it
does not know it. -/
def ReaderPc.Mute (connId : ℕ → ℕ) (n : ℕ) : ReaderPc → Prop
  | .handling f => ∀ t, f ≠ .openStream n t
  | .sending f => f.stream = some n → f = .close n .unknown
  | .writing id _ _ => id ≠ n
  | .erasing id reply => id = n → reply = none
  | .storing c _ => connId c ≠ n
  | _ => True

namespace Endpoint

/-- **No pump is caught speaking**: none has a frame to send when a `CLOSE`
drops its stream, and none receives from a socket that was shut down. -/
def Calm (e : Endpoint) : EndpointAct → Prop
  | .recv c _ => e.closed c = false
  | .reader _ =>
    match e.reader with
    | .erasing n none => e.conns.lookup n = none →
        ∀ c < e.added, e.connId c = n → (e.pump c).speaks = false
    | .storing c none => (e.pump c).speaks = false
    | _ => True
  | _ => True

instance (e : Endpoint) : ∀ a : EndpointAct, Decidable (e.Calm a)
  | .recv c _ => inferInstanceAs (Decidable (e.closed c = false))
  | .reader dialed =>
    match hr : e.reader with
    | .erasing n none =>
      decidable_of_iff (e.conns.lookup n = none →
        ∀ c < e.added, e.connId c = n → (e.pump c).speaks = false) (by simp only [Calm, hr])
    | .storing c none =>
      decidable_of_iff ((e.pump c).speaks = false) (by simp only [Calm, hr])
    | .erasing _ (some _) | .storing _ (some _) | .registering | .reading | .handling _
    | .removing _ | .adding _ | .writing .. | .sending _ | .unwinding | .stopping | .aborting
    | .swapping | .closing _ | .finished => isTrue (by simp only [Calm, hr])
  | .read _ | .write _ | .writeFailed | .forwarder | .recvEnd .. | .pump _ | .beat | .lock _
  | .transmit .. | .otherAdd .. | .otherRemove .. => inferInstanceAs (Decidable True)

/-! ## Streams that could not be opened -/

/-- What the forwarder takes out of the table again, it has not opened. -/
structure Unopened (e : Endpoint) : Prop where
  erasing : ∀ n, e.forwarder = .erasing n → ¬ Opens n e.sent
  storing : ∀ c, e.forwarder = .storing c → c < e.added ∧ ¬ Opens (e.connId c) e.sent

theorem Unopened.returns {target : Text} {e e' : Endpoint} {ok : Bool} {f : Frame} {t : Thread}
    (he : Unopened e) (ho : ∀ n c, e.forwarder = .opening n c → ¬ Opens n e.sent)
    (h : Returns target e ok f t e') : Unopened e' := by
  cases h with
  | @forwarder n c hf =>
    cases ok with
    | true => exact ⟨by simp, by simp⟩
    | false => exact ⟨fun m h => ForwarderPc.erasing.inj h ▸ ho n c hf, by simp⟩
  | _ => exact { he with }

/-- Sending a frame that opens nothing. -/
theorem Unopened.snoc {e : Endpoint} (he : Unopened e) {f : Frame}
    (hf : ∀ n t, f ≠ .openStream n t) : Unopened { e with sent := e.sent ++ [f] } := by
  have hopens : ∀ n, Opens n (e.sent ++ [f]) → Opens n e.sent := by
    intro n h
    rcases opens_append.1 h with h | h
    · exact h
    · obtain ⟨t, ht⟩ := opens_singleton.1 h
      exact absurd ht (hf n t)
  refine ⟨fun n h hn => he.erasing n h (hopens n hn), fun c h => ?_⟩
  obtain ⟨hc, hn⟩ := he.storing c h
  exact ⟨hc, fun ho => hn (hopens _ ho)⟩

theorem Unopened.sent {target : Text} {e e' : Endpoint} {f : Frame} {t : Thread}
    (he : Unopened e) (hp : Pumped e) (h : Returns target e true f t e') :
    Unopened { e' with sent := e.sent ++ [f] } := by
  cases h with
  | @forwarder n c hf => exact ⟨by simp, by simp⟩
  | register => exact { he.snoc (f := .register target) (by simp) with }
  | reader hr =>
    refine { he.snoc (f := f) ?_ with }
    rintro n t rfl
    exact hp.sending _ hr
  | keepalive => exact { he.snoc (f := .keepalive) (by simp) with }
  | @data c bytes => exact { he.snoc (f := .data (e.connId c) bytes) (by simp) with }
  | @close c why => exact { he.snoc (f := .close (e.connId c) why) (by simp) with }

theorem Unopened.step {side : Side} {target : Text} {e e' : Endpoint} {a : EndpointAct}
    (he : Unopened e) (ht : Tabled side e) (hp : Pumped e) (ho : side = .server → Opened e)
    (h : Steps side target e a e') : Unopened e' := by
  have hopening : ∀ n c, e.forwarder = .opening n c → ¬ Opens n e.sent := by
    intro n c hf
    cases side with
    | server => exact (ho rfl).opening n c hf
    | client => exact absurd (hf.symm.trans (ht.client rfl).1) (by simp)
  cases h with
  | @dialed _ n t hside hr =>
    have hidle := (ht.client hside).1
    exact ⟨fun m h => absurd (hidle.symm.trans h) (by simp),
      fun c h => absurd (hidle.symm.trans h) (by simp)⟩
  | forwarder _ hm =>
    cases hm with
    | accepted => exact ⟨by simp, by simp⟩
    | fetched _ hpc => rcases hpc with rfl | rfl <;> exact ⟨by simp, by simp⟩
    | gone => exact ⟨by simp, by simp⟩
  | allocate => exact ⟨by simp, by simp⟩
  | add => exact ⟨by simp, by simp⟩
  | spawn => exact ⟨by simp, by simp⟩
  | @forwarderErase _ n c _ hf hl =>
    obtain ⟨hc, hid⟩ := ht.table n c hl
    refine ⟨by simp, fun d h => ?_⟩
    obtain rfl := ForwarderPc.storing.inj h
    exact ⟨hc, hid ▸ he.erasing n hf⟩
  | forwarderStore => exact ⟨by simp, by simp⟩
  | dropped hw ha hret => exact he.returns hopening hret
  | transmit hw hret =>
    refine hret.transmitted (fun hret => ?_) fun hret => ?_
    · exact { he.sent hp hret with }
    · exact { he.returns hopening hret with }
  | _ => exact { he with }

/-! ## A stream that was dropped -/

/-- **An end has nothing more to say of stream `n`.** -/
structure Quiet (side : Side) (n : ℕ) (e : Endpoint) : Prop where
  opens : Opens n (e.log side)
  table : e.conns.lookup n = none
  pump : ∀ c < e.added, e.connId c = n → e.closed c = true ∧ (e.pump c).speaks = false
  reader : e.reader.Mute e.connId n

/-- A step of the read loop. -/
theorem Quiet.setReader {side : Side} {n : ℕ} {e : Endpoint} (he : Quiet side n e) {r : ReaderPc}
    (hr : r.Mute e.connId n) : Quiet side n { e with reader := r } := by
  cases side <;> exact { he with reader := hr }

/-- A step of a pump, of the stream only to say nothing. -/
theorem Quiet.setPump {side : Side} {n : ℕ} {e : Endpoint} (he : Quiet side n e) {c : ℕ}
    {p : PumpPc} (hp : e.connId c = n → p.speaks = false) :
    Quiet side n { e with pump := Function.update e.pump c p } := by
  have hpump : ∀ c' < e.added, e.connId c' = n →
      e.closed c' = true ∧ (Function.update e.pump c p c').speaks = false := by
    intro c' hc' hid
    by_cases hc : c' = c
    · subst hc
      rw [Function.update_self]
      exact ⟨(he.pump c' hc' hid).1, hp hid⟩
    · rw [Function.update_of_ne hc]
      exact he.pump c' hc' hid
  cases side <;> exact { he with pump := hpump }

/-- Setting a flag. -/
theorem Quiet.store {side : Side} {n : ℕ} {e : Endpoint} (he : Quiet side n e) (c : ℕ) :
    Quiet side n (e.store c) := by
  have hpump : ∀ c' < e.added, e.connId c' = n →
      (e.store c).closed c' = true ∧ (e.pump c').speaks = false := fun c' hc' hid =>
    ⟨closed_store (he.pump c' hc' hid).1, (he.pump c' hc' hid).2⟩
  cases side <;> exact { he with pump := hpump }

/-- Taking something out of the table. -/
theorem Quiet.erase {side : Side} {n : ℕ} {e : Endpoint} (he : Quiet side n e) (m : ℕ) :
    Quiet side n { e with conns := e.conns.erase m } := by
  have htable : (e.conns.erase m).lookup n = none := by
    rw [Option.eq_none_iff_forall_ne_some]
    intro c hl
    exact absurd (he.table.symm.trans (lookup_erase_eq_some.1 hl).2) (by simp)
  cases side <;> exact { he with table := htable }

/-- A connection is added under another stream. -/
theorem Quiet.addConn {side : Side} {n m : ℕ} {e : Endpoint} (he : Quiet side n e)
    (hk : Known side e) (hm : m ≠ n) (p : PumpPc) : Quiet side n (e.addConn m p) := by
  have htable : (e.conns.insert m e.added).lookup n = none := by
    rw [AList.lookup_insert_ne (Ne.symm hm)]
    exact he.table
  have hpump : ∀ c < e.added + 1, (e.addConn m p).connId c = n →
      (e.addConn m p).closed c = true ∧ ((e.addConn m p).pump c).speaks = false := by
    intro c hc hid
    rcases Nat.lt_succ_iff_lt_or_eq.1 hc with hc | rfl
    · rw [e.addConn_connId_of_lt m p hc] at hid
      rw [e.addConn_pump_of_ne m p (Nat.ne_of_lt hc)]
      obtain ⟨hclosed, hspeaks⟩ := he.pump c hc hid
      exact ⟨(Function.update_of_ne (Nat.ne_of_lt hc) ..).trans hclosed, hspeaks⟩
    · rw [e.addConn_connId_self] at hid
      exact absurd hid hm
  have hreader : e.reader.Mute (e.addConn m p).connId n := by
    have := he.reader
    cases hr : e.reader with
    | storing c reply =>
      rw [hr] at this
      have hc := (hk.storing c reply hr).1
      rw [ReaderPc.Mute, e.addConn_connId_of_lt m p hc]
      exact this
    | _ =>
      rw [hr] at this
      exact this
  cases side <;> exact { opens := he.opens, table := htable, pump := hpump, reader := hreader }

theorem Quiet.moves {side : Side} {n : ℕ} {e : Endpoint} {r : ReaderPc} (he : Quiet side n e)
    (hk : Known side e) (h : ReaderMoves side e r) : Quiet side n { e with reader := r } := by
  refine he.setReader ?_
  have hmute := he.reader
  cases h with
  | ended => split <;> trivial
  | asked hr hr' => rcases hr' with rfl | rfl <;> trivial
  | registered => simp [ReaderPc.Mute, Frame.stream]
  | @refused m t why hr hwhy =>
    rw [hr] at hmute
    have hne : m ≠ n := by
      rintro rfl
      exact hmute t rfl
    simp [ReaderPc.Mute, Frame.stream, hne]
  | unknown => simp [ReaderPc.Mute, Frame.stream]
  | @delivering m c bytes hr hl =>
    rintro rfl
    exact absurd (he.table.symm.trans hl) (by simp)
  | writeFailed hr =>
    rw [hr] at hmute
    exact fun h => absurd h hmute
  | closed => exact fun _ => rfl
  | @gone m reply hr hl =>
    rw [hr] at hmute
    cases reply with
    | none => trivial
    | some f =>
      have hne : m ≠ n := fun h => absurd (hmute h) (by simp)
      simp [afterClose, ReaderPc.Mute, hk.erasing m f hr, Frame.stream, hne]
  | _ => trivial

/-- The return of a thread from `Send`: nothing of the stream but that it
is not known. -/
theorem Quiet.returns {side : Side} {target : Text} {n : ℕ} {e e' : Endpoint} {ok : Bool}
    {f : Frame} {t : Thread} (he : Quiet side n e) (ht : Tabled side e)
    (ho : side = .server → Opened e) (h : Returns target e ok f t e') :
    Quiet side n e' ∧ (f.stream = some n → f = .close n .unknown) := by
  -- a pump that has something to say is of another stream
  have hspeaks : ∀ c, (e.pump c).speaks = true → e.connId c ≠ n := by
    intro c hs hid
    have hc : c < e.added := ht.lt_added fun h => by simp [h, PumpPc.speaks] at hs
    exact absurd hs (by simp [(he.pump c hc hid).2])
  cases h with
  | register hr =>
    refine ⟨?_, by simp [Frame.stream]⟩
    have hset := he.setReader (r := if ok then .reading else .aborting) (by cases ok <;> trivial)
    cases side <;> exact { hset with }
  | reader hr =>
    have hmute := he.reader
    rw [hr] at hmute
    exact ⟨he.setReader trivial, hmute⟩
  | @forwarder m c hf =>
    refine ⟨by cases side <;> exact { he with }, fun hm => ?_⟩
    obtain rfl : m = n := Option.some.inj hm
    cases side with
    | server => exact absurd he.opens ((ho rfl).opening m c hf)
    | client => exact absurd (hf.symm.trans (ht.client rfl).1) (by simp)
  | keepalive =>
    exact ⟨by cases side <;> exact { he with }, by simp [Frame.stream]⟩
  | @data c bytes hp =>
    have hne := hspeaks c (by simp [hp, PumpPc.speaks])
    exact ⟨he.setPump fun h => absurd h hne, by simp [Frame.stream, hne]⟩
  | @close c why hp =>
    have hne := hspeaks c (by simp [hp, PumpPc.speaks])
    exact ⟨he.setPump fun h => absurd h hne, by simp [Frame.stream, hne]⟩

/-- **Every calm step keeps an end quiet of the stream**, and what it sends
of it is that it is not known. -/
theorem Quiet.step {side : Side} {target : Text} {n : ℕ} {e e' : Endpoint} {a : EndpointAct}
    (he : Quiet side n e) (ht : Tabled side e) (hk : Known side e) (ho : side = .server → Opened e)
    (h : Steps side target e a e') (hcalm : e.Calm a)
    (hheard : ∀ f, a = .read (some f) → e.Heard side f)
    (hread : ∀ f, a = .read (some f) → side = .client → f.After e.received) :
    Quiet side n e' ∧ ∃ more, e'.sent = e.sent ++ more ∧
      ∀ f ∈ more, f.stream = some n → f = .close n .unknown := by
  have hmute := he.reader
  have hstays : ∀ {e'' : Endpoint}, Quiet side n e'' → e''.sent = e.sent →
      Quiet side n e'' ∧ ∃ more, e''.sent = e.sent ++ more ∧
        ∀ f ∈ more, f.stream = some n → f = .close n .unknown :=
    fun h hs => ⟨h, [], by simp [hs], by simp⟩
  cases h with
  | @read f hr =>
    refine hstays ⟨?_, he.table, he.pump, ?_⟩ rfl
    · cases side with
      | server => exact he.opens
      | client => exact opens_append.2 (.inl he.opens)
    · rintro t rfl
      cases side with
      | server => exact (hheard _ rfl n rfl).2 t rfl
      | client => exact hread _ rfl rfl he.opens
  | moves reg t hm =>
    have hset := he.moves hk hm
    refine hstays ?_ rfl
    cases side <;> exact { hset with }
  | @dialed _ m t hside hr =>
    rw [hr] at hmute
    have hm : m ≠ n := by
      rintro rfl
      exact hmute t rfl
    exact hstays ((he.addConn hk hm .receiving).setReader trivial) rfl
  | @write _ m c k rest hr =>
    rw [hr] at hmute
    have hset := he.setReader (r := .writing m c (rest.drop k)) hmute
    refine hstays ?_ rfl
    cases side <;> exact { hset with }
  | @erase _ m c reply hr hl =>
    have hne : m ≠ n := by
      rintro rfl
      exact absurd (he.table.symm.trans hl) (by simp)
    have hset := (he.erase m).setReader (r := .storing c reply) fun hid =>
      hne ((ht.table m c hl).2.symm.trans hid)
    exact hstays hset rfl
  | @store _ c reply hr =>
    rw [hr] at hmute
    have hafter : (afterClose reply).Mute e.connId n := by
      cases reply with
      | none => trivial
      | some f =>
        have hne : e.connId c ≠ n := hmute
        simp [afterClose, ReaderPc.Mute, (hk.storing c _ hr).2 f rfl, Frame.stream, hne]
    exact hstays ((he.store c).setReader hafter) rfl
  | stop =>
    have hset := he.setReader (r := .swapping) trivial
    refine hstays ?_ rfl
    cases side <;> exact { hset with }
  | abort =>
    have hset := he.setReader (r := .finished) trivial
    refine hstays ?_ rfl
    cases side <;> exact { hset with }
  | swap =>
    refine hstays ?_ rfl
    cases side <;> exact { he with table := by simp, reader := trivial }
  | @sweep _ c taken hr => exact hstays ((he.store c).setReader (r := .closing taken) trivial) rfl
  | @add _ m hside hf =>
    subst hside
    -- the stream has a connection, and the number is a new one
    obtain ⟨c, hc, hid⟩ := (ho rfl).added n he.opens
    have hm : m ≠ n := fun h => (ht.adding m hf).2 c hc (hid.trans h.symm)
    exact hstays { he.addConn hk hm .unborn with } rfl
  | @spawn _ c hside hf =>
    subst hside
    exact hstays { he.setPump (c := c) (p := .receiving) fun _ => rfl with } rfl
  | @forwarderErase _ m c hside hf hl =>
    subst hside
    exact hstays { he.erase m with } rfl
  | @forwarderStore _ c hside hf =>
    subst hside
    exact hstays { he.store c with } rfl
  | @recv c bytes hp =>
    have hopen : e.closed c = false := hcalm
    have hset := he.setPump (c := c) (p := .sending bytes) fun hid => by
      have hc := ht.lt_added (c := c) (by simp [hp])
      exact absurd (he.pump c hc hid).1 (by simp [hopen])
    refine hstays ?_ rfl
    cases side <;> exact { hset with }
  | @recvEnd _ c why hp => exact hstays (he.setPump fun _ => rfl) rfl
  | @exchange _ c why hp =>
    refine hstays ((he.store c).setPump fun hid => ?_) rfl
    have hc := ht.lt_added (c := c) (by simp [hp])
    simp [PumpPc.speaks, (he.pump c hc hid).1]
  | @pumpErase _ c ours why hp =>
    refine hstays ((he.erase (e.connId c)).setPump fun hid => ?_) rfl
    have hc := ht.lt_added (c := c) (by simp [hp])
    have hours := (he.pump c hc hid).2
    rw [hp] at hours
    obtain rfl : ours = false := hours
    rfl
  | dropped hw ha hret => exact hstays (he.returns ht ho hret).1 hret.frame.1
  | @transmit t f ok e' hw hret =>
    obtain ⟨hquiet, hf⟩ := he.returns ht ho hret
    have hopens : Opens n e'.sent → Opens n (if ok then e.sent ++ [f] else e.sent) := by
      rw [hret.frame.1]
      cases ok
      · exact id
      · exact fun h => opens_append.2 (.inl h)
    refine ⟨?_, ?_⟩
    · cases side with
      | server => exact { hquiet with opens := hopens hquiet.opens }
      | client => exact { hquiet with }
    · cases ok with
      | false => exact ⟨[], by simp, by simp⟩
      | true => exact ⟨[f], rfl, by simpa using hf⟩
  | _ =>
    refine hstays ?_ rfl
    cases side <;> exact { he with }

/-! ## A stream that is being dropped -/

/-- Where an end is that has last read a `CLOSE` of stream `n`: it drops the
stream, or has dropped it. -/
inductive Dropping (side : Side) (n : ℕ) (e : Endpoint) : Prop
  | handling {why : CloseReason} : e.reader = .handling (.close n why) → Dropping side n e
  | erasing : e.reader = .erasing n none → Dropping side n e
  | storing {c : ℕ} : e.reader = .storing c none → e.connId c = n → e.conns.lookup n = none →
      Dropping side n e
  | quiet : Quiet side n e → Dropping side n e

/-- What `CloseConn` does not find is closed already. -/
theorem Quiet.of_gone {side : Side} {n : ℕ} {e : Endpoint} (ht : Tabled side e)
    (hk : Known side e) (hu : Unopened e) (ha : Accounted e) (hr : e.reader = .erasing n none)
    (hl : e.conns.lookup n = none)
    (hp : ∀ c < e.added, e.connId c = n → (e.pump c).speaks = false) :
    Quiet side n { e with reader := .reading } := by
  have hopens : Opens n (e.log side) := hk.reader n (by rw [hr]; rfl)
  have hclosed : ∀ c < e.added, e.connId c = n → e.closed c = true := by
    rintro c hc rfl
    cases ha.owned c hc with
    | closed h => exact h
    | tabled h => exact absurd (hl.symm.trans h) (by simp)
    | storing h => exact absurd (hr.symm.trans h) (by simp)
    | taken h _ => exact absurd (hr.symm.trans h) (by simp)
    | forwarder h =>
      cases side with
      | server => exact absurd hopens (hu.storing c h).2
      | client => exact absurd (h.symm.trans (ht.client rfl).1) (by simp)
  refine ⟨?_, hl, fun c hc hid => ⟨hclosed c hc hid, hp c hc hid⟩, trivial⟩
  cases side <;> exact hopens

/-- What `CloseConn` has found it marks. -/
theorem Quiet.of_stored {side : Side} {n c : ℕ} {e : Endpoint} (ht : Tabled side e)
    (hk : Known side e) (hr : e.reader = .storing c none) (hid : e.connId c = n)
    (hl : e.conns.lookup n = none) (hp : (e.pump c).speaks = false) :
    Quiet side n { e.store c with reader := .reading } := by
  have hopens : Opens n (e.log side) := hk.reader n (by rw [hr, ← hid]; rfl)
  have hc := (hk.storing c none hr).1
  refine ⟨?_, hl, fun c' hc' hid' => ?_, trivial⟩
  · cases side <;> exact hopens
  · obtain rfl : c' = c := ht.inj c' c hc' hc (hid'.trans hid.symm)
    exact ⟨Function.update_self .., hp⟩

/-- **Every calm step takes an end on to silence.** -/
theorem Dropping.step {side : Side} {target : Text} {n : ℕ} {e e' : Endpoint} {a : EndpointAct}
    (hd : Dropping side n e) (ht : Tabled side e) (hk : Known side e)
    (ho : side = .server → Opened e) (hu : Unopened e) (hacc : Accounted e)
    (h : e.step side target a = some e') (hcalm : e.Calm a)
    (hheard : ∀ f, a = .read (some f) → e.Heard side f)
    (hread : ∀ f, a = .read (some f) → side = .client → f.After e.received) :
    Dropping side n e' := by
  have hsteps := steps_of_step h
  cases hd with
  | handling hr =>
    rcases reader_of_busy h (by rw [hr]; trivial) with hsame | ⟨dialed, rfl⟩
    · exact .handling (hsame.trans hr)
    · simp only [Endpoint.step, readerStep, hr, handle] at h
      exact Option.some.inj h ▸ .erasing rfl
  | erasing hr =>
    rcases reader_of_busy h (by rw [hr]; trivial) with hsame | ⟨dialed, rfl⟩
    · exact .erasing (hsame.trans hr)
    · simp only [Calm, hr] at hcalm
      simp only [Endpoint.step, readerStep, hr] at h
      split at h
      case h_1 hl =>
        have hquiet := Quiet.of_gone ht hk hu hacc hr hl (hcalm hl)
        exact Option.some.inj h ▸ .quiet hquiet
      case h_2 c hl =>
        obtain ⟨-, hid⟩ := ht.table n c hl
        exact Option.some.inj h ▸ .storing rfl hid (AList.lookup_erase _ _)
  | @storing c hr hid hl =>
    rcases reader_of_busy h (by rw [hr]; trivial) with hsame | ⟨dialed, rfl⟩
    · obtain ⟨hkeeps, htable⟩ := ht.keeps hsteps
      have hc := (hk.storing c none hr).1
      subst hid
      exact .storing (hsame.trans hr) (hkeeps c hc) (htable c hc hl)
    · simp only [Calm, hr] at hcalm
      simp only [Endpoint.step, readerStep, hr] at h
      exact Option.some.inj h ▸ .quiet (Quiet.of_stored ht hk hr hid hl hcalm)
  | quiet hq => exact .quiet (hq.step ht hk ho hsteps hcalm hheard hread).1

/-- An end that has read a `CLOSE` drops its stream. -/
structure Attentive (side : Side) (e : Endpoint) : Prop where
  accounted : Accounted e
  unopened : Unopened e
  hearing : ∀ n why, e.received.getLast? = some (.close n why) → Dropping side n e

theorem Attentive.step {side : Side} {target : Text} {e e' : Endpoint} {a : EndpointAct}
    (he : Attentive side e) (ht : Tabled side e) (hp : Pumped e) (hk : Known side e)
    (ho : side = .server → Opened e) (h : e.step side target a = some e') (hcalm : e.Calm a)
    (hheard : ∀ f, a = .read (some f) → e.Heard side f)
    (hread : ∀ f, a = .read (some f) → side = .client → f.After e.received) :
    Attentive side e' := by
  have hsteps := steps_of_step h
  refine ⟨he.accounted.step ht hsteps, he.unopened.step ht hp ho hsteps, fun n why hlast => ?_⟩
  rcases hsteps.record.2 with hrec | ⟨f, rfl, hrec⟩
  · rw [hrec] at hlast
    exact (he.hearing n why hlast).step ht hk ho he.unopened he.accounted h hcalm hheard hread
  · -- the frame that is read is the one in hand
    have hf : f = .close n why := by simpa [hrec] using hlast
    subst hf
    simp only [Endpoint.step] at h
    split at h
    case h_1 g hr heq =>
      obtain rfl := Option.some.inj heq
      exact Option.some.inj h ▸ .handling rfl
    case h_2 heq => cases heq
    case h_3 => cases h

end Endpoint

namespace Tunnel

/-- **No pump of one end is caught speaking.** -/
def Calm (side : Side) (net : Tunnel) (a : Side × EndpointAct) : Prop :=
  a.1 = side → (net.endpoint side).Calm a.2

instance (side : Side) (net : Tunnel) (a : Side × EndpointAct) : Decidable (Calm side net a) :=
  inferInstanceAs (Decidable (_ → _))

end Tunnel

end ZeroTouch
