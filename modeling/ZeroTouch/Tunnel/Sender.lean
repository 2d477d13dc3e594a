import ZeroTouch.Tunnel.Table
/-!
# What an end sends of a stream

The bytes a pump has read are those its `DATA` frames carry, in order, and
those it is about to send. A pump that comes to the end of its socket has
sent all of them, and its `CLOSE` comes after them. At a server, a stream's
`OPEN` comes before its `DATA`, and is sent once.
-/

namespace ZeroTouch

/-- A frame the read loop sends: neither of a pump nor of the forwarder. -/
def Frame.Plain : Frame → Prop
  | .data _ _ => False
  | .openStream _ _ => False
  | .close _ why => why ≠ .eof ∧ why ≠ .lost
  | _ => True

namespace Endpoint

/-- How far a pump is: the bytes it has sent, against those it has read. -/
def PumpOk (p : PumpPc) (sent read : Bytes) : Prop :=
  match p with
  | .unborn => sent = [] ∧ read = []
  | .receiving => sent = read
  | .sending bytes => sent ++ bytes = read
  | .exchanging why | .erasing _ why | .closing why => sent <+: read ∧ (why = .eof → sent = read)
  | .done => sent <+: read

/-- A pump has read what it has sent, at least. -/
theorem PumpOk.isPrefix {p : PumpPc} {sent read : Bytes} (h : PumpOk p sent read) :
    sent <+: read := by
  cases p with
  | unborn => exact h.1 ▸ List.nil_prefix
  | receiving => exact h ▸ List.prefix_refl _
  | sending bytes => exact ⟨bytes, h⟩
  | exchanging why => exact h.1
  | erasing ours why => exact h.1
  | closing why => exact h.1
  | done => exact h

/-- **The pumps' bytes go out in order.** -/
structure Pumped (e : Endpoint) : Prop where
  sending : ∀ f, e.reader = .sending f → f.Plain
  erasing : ∀ n f, e.reader = .erasing n (some f) → f.Plain
  storing : ∀ c f, e.reader = .storing c (some f) → f.Plain
  pump : ∀ c < e.added, PumpOk (e.pump c) (payloads (e.connId c) e.sent) (e.read (e.connId c))
  fresh : ∀ n, e.Fresh n → (∀ bytes, .data n bytes ∉ e.sent) ∧ e.read n = []
  eof : ∀ n before rest, e.sent = before ++ .close n .eof :: rest →
    payloads n before = e.read n ∧ ∃ c < e.added, e.connId c = n ∧ e.pump c = .done

theorem pumped_fresh (side : Side) : Pumped (fresh side) := by
  cases side <;> constructor <;> simp [Endpoint.fresh]

/-- A step of the read loop. -/
theorem Pumped.setReader {e : Endpoint} (he : Pumped e) {r : ReaderPc}
    (hs : ∀ f, r = .sending f → f.Plain) (hr : ∀ n f, r = .erasing n (some f) → f.Plain)
    (hc : ∀ c f, r = .storing c (some f) → f.Plain) : Pumped { e with reader := r } :=
  { he with sending := hs, erasing := hr, storing := hc }

/-- Where the read loop goes after `CloseConn`, it sends the reply. -/
theorem plain_of_afterClose {reply : Option Frame} (h : ∀ f, reply = some f → f.Plain) {f : Frame}
    (hf : afterClose reply = .sending f) : f.Plain := by
  cases reply with
  | none => cases hf
  | some g => exact ReaderPc.sending.inj hf ▸ h g rfl

theorem Pumped.moves {side : Side} {e : Endpoint} {r : ReaderPc} (he : Pumped e)
    (h : ReaderMoves side e r) : Pumped { e with reader := r } := by
  cases h with
  | ended => refine he.setReader ?_ ?_ ?_ <;> split <;> simp
  | asked hr hr' => rcases hr' with rfl | rfl <;> exact he.setReader (by simp) (by simp) (by simp)
  | registered hr =>
    refine he.setReader (fun f hf => ?_) (by simp) (by simp)
    exact ReaderPc.sending.inj hf ▸ trivial
  | refused hr hwhy =>
    refine he.setReader (fun f hf => ?_) (by simp) (by simp)
    rcases hwhy with rfl | rfl <;> exact ReaderPc.sending.inj hf ▸ by simp [Frame.Plain]
  | unknown hr hl =>
    refine he.setReader (fun f hf => ?_) (by simp) (by simp)
    exact ReaderPc.sending.inj hf ▸ by simp [Frame.Plain]
  | writeFailed hr =>
    refine he.setReader (by simp) (fun n f hf => ?_) (by simp)
    simp only [ReaderPc.erasing.injEq, Option.some.injEq] at hf
    exact hf.2 ▸ by simp [Frame.Plain]
  | @gone n reply hr hl =>
    refine he.setReader (fun f hf => plain_of_afterClose (fun g hg => ?_) hf) ?_ ?_
    · exact he.erasing n g (by rw [hr, hg])
    · cases reply <;> simp [afterClose]
    · cases reply <;> simp [afterClose]
  | _ => exact he.setReader (by simp) (by simp) (by simp)

/-- A step of a pump that sends nothing. -/
theorem Pumped.setPump {e : Endpoint} (he : Pumped e) {c : ℕ} {p : PumpPc}
    (hdone : e.pump c ≠ .done)
    (hp : ∀ sent read, PumpOk (e.pump c) sent read → PumpOk p sent read) :
    Pumped { e with pump := Function.update e.pump c p } := by
  refine { he with pump := fun c' hc' => ?_, eof := fun n before rest h => ?_ }
  · by_cases hc : c' = c
    · subst hc
      simp only [Function.update_self]
      exact hp _ _ (he.pump c' hc')
    · simp only [Function.update_of_ne hc]
      exact he.pump c' hc'
  · obtain ⟨hread, c', hc', hid, hd⟩ := he.eof n before rest h
    have hc : c' ≠ c := fun heq => hdone (heq ▸ hd)
    exact ⟨hread, c', hc', hid, by simp only [Function.update_of_ne hc, hd]⟩

/-- Sending a frame that is no `DATA`. -/
theorem Pumped.snoc {e : Endpoint} (he : Pumped e) {f : Frame}
    (hdata : ∀ n bytes, f ≠ .data n bytes)
    (heof : ∀ n, f = .close n .eof →
      payloads n e.sent = e.read n ∧ ∃ c < e.added, e.connId c = n ∧ e.pump c = .done) :
    Pumped { e with sent := e.sent ++ [f] } := by
  have hpay : ∀ n, payloads n (e.sent ++ [f]) = payloads n e.sent := by
    intro n
    have hnil : payloads n [f] = [] := payloads_eq_nil (by simpa [eq_comm] using hdata n)
    rw [payloads_append, hnil, List.append_nil]
  refine { he with
    pump := fun c hc => ?_
    fresh := fun n hn => ⟨fun bytes h => ?_, (he.fresh n hn).2⟩
    eof := fun n before rest h => ?_ }
  · simp only [hpay]
    exact he.pump c hc
  · rcases List.mem_append.1 h with h | h
    · exact (he.fresh n hn).1 bytes h
    · exact hdata n bytes (List.mem_singleton.1 h).symm
  · rcases cases_snoc h with ⟨rfl, rfl⟩ | ⟨rest', h'⟩
    · exact heof n rfl
    · exact he.eof n before rest' h'

/-- Sending what a pump has read. -/
theorem Pumped.snocData {side : Side} {e : Endpoint} (he : Pumped e) (ht : Tabled side e) {c : ℕ}
    {bytes : Bytes} (hp : e.pump c = .sending bytes) :
    Pumped { e with
      sent := e.sent ++ [.data (e.connId c) bytes]
      pump := Function.update e.pump c .receiving } := by
  have hc := ht.lt_added (c := c) (by simp [hp])
  refine { he with
    pump := fun c' hc' => ?_
    fresh := fun n hn => ⟨fun b h => ?_, (he.fresh n hn).2⟩
    eof := fun n before rest h => ?_ }
  · by_cases hcc : c' = c
    · subst hcc
      have := he.pump c' hc'
      rw [hp] at this
      simpa [Frame.payload, PumpOk] using this
    · have hid : e.connId c ≠ e.connId c' := fun h => hcc (ht.inj c' c hc' hc h.symm)
      have := he.pump c' hc'
      simpa [Function.update_of_ne hcc, Frame.payload, hid] using this
  · rcases List.mem_append.1 h with h | h
    · exact (he.fresh n hn).1 b h
    · have : e.connId c = n := by simpa [eq_comm] using (Frame.data.inj (List.mem_singleton.1 h)).1
      exact hn c hc this
  · rcases cases_snoc h with ⟨-, hf⟩ | ⟨rest', h'⟩
    · cases hf
    · obtain ⟨hread, c', hc', hid, hd⟩ := he.eof n before rest' h'
      have hcc : c' ≠ c := by
        rintro rfl
        simp [hp] at hd
      exact ⟨hread, c', hc', hid, by simp only [Function.update_of_ne hcc, hd]⟩

/-- Adding a connection under a fresh stream. -/
theorem Pumped.addConn {e : Endpoint} (he : Pumped e) {n : ℕ} (hn : e.Fresh n) {p : PumpPc}
    (hp : PumpOk p [] []) : Pumped (e.addConn n p) := by
  obtain ⟨hdata, hread⟩ := he.fresh n hn
  refine { he with
    pump := fun c hc => ?_
    fresh := fun m hm => he.fresh m hm.of_addConn
    eof := fun m before rest h => ?_ }
  · rcases Nat.lt_succ_iff_lt_or_eq.1 hc with hc | rfl
    · rw [e.addConn_pump_of_ne n p (Nat.ne_of_lt hc), e.addConn_connId_of_lt n p hc]
      exact he.pump c hc
    · rw [e.addConn_pump_self, e.addConn_connId_self]
      show PumpOk p (payloads n e.sent) (e.read n)
      rw [payloads_eq_nil hdata, hread]
      exact hp
  · obtain ⟨hpay, c, hc, hid, hd⟩ := he.eof m before rest h
    exact ⟨hpay, c, Nat.lt_succ_of_lt hc, by rw [e.addConn_connId_of_lt n p hc, hid],
      by rw [e.addConn_pump_of_ne n p (Nat.ne_of_lt hc), hd]⟩

/-- What a pump has received it will send. -/
theorem Pumped.recv {side : Side} {e : Endpoint} (he : Pumped e) (ht : Tabled side e) {c : ℕ}
    {bytes : Bytes} (hp : e.pump c = .receiving) :
    Pumped { e with
      read := Function.update e.read (e.connId c) (e.read (e.connId c) ++ bytes)
      pump := Function.update e.pump c (.sending bytes) } := by
  have hc := ht.lt_added (c := c) (by simp [hp])
  refine { he with
    pump := fun c' hc' => ?_
    fresh := fun n hn => ⟨(he.fresh n hn).1, ?_⟩
    eof := fun n before rest h => ?_ }
  · by_cases hcc : c' = c
    · subst hcc
      have := he.pump c' hc'
      rw [hp] at this
      simpa [PumpOk] using this
    · have hid : e.connId c' ≠ e.connId c := fun h => hcc (ht.inj c' c hc' hc h)
      simpa [Function.update_of_ne hcc, Function.update_of_ne hid] using he.pump c' hc'
  · have hne : n ≠ e.connId c := fun h => hn c hc h.symm
    exact (Function.update_of_ne hne ..).trans (he.fresh n hn).2
  · -- the pump of a stream that was closed is done
    obtain ⟨hread, c', hc', hid, hd⟩ := he.eof n before rest h
    have hcc : c' ≠ c := by
      rintro rfl
      simp [hp] at hd
    have hne : n ≠ e.connId c := fun h => hcc (ht.inj c' c hc' hc (hid.trans h))
    exact ⟨hread.trans (Function.update_of_ne hne ..).symm, c', hc', hid,
      by simp only [Function.update_of_ne hcc, hd]⟩

/-- The return of a thread from `Send`. -/
theorem Pumped.returns {target : Text} {e e' : Endpoint} {f : Frame} {t : Thread}
    (he : Pumped e) (h : Returns target e false f t e') : Pumped e' := by
  cases h with
  | register hr => exact { he.setReader (r := .aborting) (by simp) (by simp) (by simp) with }
  | reader hr => exact he.setReader (by simp) (by simp) (by simp)
  | forwarder hf => exact { he with }
  | keepalive hk => exact { he with }
  | data hp =>
    -- what it had in hand is lost, and its `CLOSE` will not say that it was all
    refine he.setPump (by simp [hp]) fun sent read h => ?_
    rw [hp] at h
    exact ⟨⟨_, h⟩, by simp⟩
  | close hp =>
    refine he.setPump (by simp [hp]) fun sent read h => ?_
    rw [hp] at h
    exact h.1

/-- The return of a thread from `Send`, with its frame sent. -/
theorem Pumped.sent {side : Side} {target : Text} {e e' : Endpoint} {f : Frame} {t : Thread}
    (he : Pumped e) (ht : Tabled side e) (h : Returns target e true f t e') :
    Pumped { e' with sent := e.sent ++ [f] } := by
  cases h with
  | register hr =>
    exact { (he.setReader (r := .reading) (by simp) (by simp) (by simp)).snoc
      (f := .register target) (by simp) (by simp) with }
  | reader hr =>
    have hplain := he.sending f hr
    refine (he.setReader (by simp) (by simp) (by simp)).snoc ?_ ?_
    · rintro n bytes rfl
      exact hplain
    · rintro n rfl
      exact absurd rfl hplain.1
  | @forwarder n c hf => exact { he.snoc (f := .openStream n target) (by simp) (by simp) with }
  | keepalive hk => exact { he.snoc (f := .keepalive) (by simp) (by simp) with }
  | data hp => exact he.snocData ht hp
  | @close c why hp =>
    have hc := ht.lt_added (c := c) (by simp [hp])
    have hok := he.pump c hc
    rw [hp] at hok
    have hdone : Pumped { e with pump := Function.update e.pump c .done } := by
      refine he.setPump (by simp [hp]) fun sent read h => ?_
      rw [hp] at h
      exact h.1
    refine hdone.snoc (by simp) fun n hn => ?_
    obtain ⟨rfl, rfl⟩ := Frame.close.inj hn
    exact ⟨hok.2 rfl, c, hc, rfl, Function.update_self ..⟩

/-- **Every step keeps the pumps' bytes in order.** -/
theorem Pumped.step {side : Side} {target : Text} {e e' : Endpoint} {a : EndpointAct}
    (he : Pumped e) (ht : Tabled side e) (h : Steps side target e a e') : Pumped e' := by
  cases h with
  | @read f hr => exact { he.setReader (r := .handling f) (by simp) (by simp) (by simp) with }
  | moves reg t hm => exact { he.moves hm with }
  | @dialed _ n t hside hr =>
    have hadd := he.addConn ((ht.client hside).2.2 n t hr) (p := .receiving) rfl
    exact hadd.setReader (by simp) (by simp) (by simp)
  | @write _ n c k rest hr =>
    exact { he.setReader (r := .writing n c (rest.drop k)) (by simp) (by simp) (by simp) with }
  | @erase _ n c reply hr hl =>
    refine { he.setReader (r := .storing c reply) (by simp) (by simp) fun d f hf => ?_ with }
    exact he.erasing n f (by rw [hr, (ReaderPc.storing.inj hf).2])
  | @store _ c reply hr =>
    refine { he.setReader (r := afterClose reply)
      (fun f hf => plain_of_afterClose (fun g hg => ?_) hf) ?_ ?_ with }
    · exact he.storing c g (by rw [hr, hg])
    · cases reply <;> simp [afterClose]
    · cases reply <;> simp [afterClose]
  | stop hr hw => exact { he.setReader (r := .swapping) (by simp) (by simp) (by simp) with }
  | abort hr hw => exact { he.setReader (r := .finished) (by simp) (by simp) (by simp) with }
  | swap hr => exact { he.setReader (r := .closing _) (by simp) (by simp) (by simp) with }
  | @sweep _ c taken hr =>
    exact { he.setReader (r := .closing taken) (by simp) (by simp) (by simp) with }
  | forwarder hside hm => exact { he with }
  | allocate hside hf => exact { he with }
  | @add _ n hside hf => exact { he.addConn (ht.adding n hf).2 (p := .unborn) ⟨rfl, rfl⟩ with }
  | @spawn _ c hside hf =>
    obtain ⟨-, hp⟩ := ht.spawning c hf
    have hpump : Pumped { e with pump := Function.update e.pump c .receiving } := by
      refine he.setPump (by simp [hp]) fun sent read h => ?_
      rw [hp] at h
      exact h.1.trans h.2.symm
    exact { hpump with }
  | forwarderErase hside hf hl => exact { he with }
  | forwarderStore hside hf => exact { he with }
  | recv hp => exact he.recv ht hp
  | recvEnd hp =>
    refine he.setPump (by simp [hp]) fun sent read h => ?_
    rw [hp] at h
    exact ⟨h ▸ List.prefix_refl _, fun _ => h⟩
  | @exchange _ c why hp =>
    have hpump : Pumped
        { e with pump := Function.update e.pump c (.erasing (!e.closed c) why) } := by
      refine he.setPump (by simp [hp]) fun sent read h => ?_
      rw [hp] at h
      exact h
    exact { hpump with }
  | @pumpErase _ c ours why hp =>
    have hpump : Pumped { e with
        pump := Function.update e.pump c (if ours then .closing why else .done) } := by
      refine he.setPump (by simp [hp]) fun sent read h => ?_
      rw [hp] at h
      cases ours with
      | true => exact h
      | false => exact h.1
    exact { hpump with }
  | beat hk => exact { he with }
  | lock hw ha => exact { he with }
  | dropped hw ha hret => exact he.returns hret
  | transmit hw hret =>
    refine hret.transmitted (fun hret => ?_) fun hret => ?_
    · exact { he.sent ht hret with }
    · exact { he.returns hret with }
  | others reg => exact { he with }

/-- What an end has sent of a stream, its pump has read. -/
theorem Pumped.isPrefix {e : Endpoint} (he : Pumped e) (n : ℕ) :
    payloads n e.sent <+: e.read n := by
  by_cases hn : e.Fresh n
  · rw [payloads_eq_nil (he.fresh n hn).1]
    exact List.nil_prefix
  · obtain ⟨c, hc, rfl⟩ : ∃ c < e.added, e.connId c = n := by simpa [Fresh] using hn
    exact (he.pump c hc).isPrefix

/-! ## The streams a server opens -/

/-- **A server opens each stream once, before its bytes.** -/
structure Opened (e : Endpoint) : Prop where
  wellOpened : WellOpened e.sent
  added : ∀ n, Opens n e.sent → ∃ c < e.added, e.connId c = n
  opening : ∀ n c, e.forwarder = .opening n c → ¬ Opens n e.sent
  spawning : ∀ c, e.forwarder = .spawning c → Opens (e.connId c) e.sent
  started : ∀ c < e.added, e.pump c ≠ .unborn → Opens (e.connId c) e.sent

theorem opened_fresh : Opened (fresh .server) := by
  constructor <;> simp [Endpoint.fresh, wellOpened_nil]

/-- A stream without a connection is not open. -/
theorem Opened.not_opens {e : Endpoint} (he : Opened e) {n : ℕ} (hn : e.Fresh n) :
    ¬ Opens n e.sent := by
  intro h
  obtain ⟨c, hc, hid⟩ := he.added n h
  exact hn c hc hid

/-- A step of a pump past its start. -/
theorem Opened.setPump {e : Endpoint} (he : Opened e) {c : ℕ} (p : PumpPc)
    (h : e.pump c ≠ .unborn) : Opened { e with pump := Function.update e.pump c p } := by
  refine { he with started := fun c' hc' hp => ?_ }
  by_cases hc : c' = c
  · subst hc
    exact he.started c' hc' h
  · simp only [ne_eq, Function.update_of_ne hc] at hp
    exact he.started c' hc' hp

/-- Sending a frame that opens nothing. -/
theorem Opened.snoc {e : Endpoint} (he : Opened e) {f : Frame} (hf : f.After e.sent)
    (hopen : ∀ n t, f ≠ .openStream n t) : Opened { e with sent := e.sent ++ [f] } := by
  have hopens : ∀ n, Opens n (e.sent ++ [f]) ↔ Opens n e.sent := by
    intro n
    rw [opens_append, opens_singleton]
    simp [hopen n]
  exact
    { wellOpened := he.wellOpened.snoc hf
      added := fun n h => he.added n ((hopens n).1 h)
      opening := fun n c h h' => he.opening n c h ((hopens n).1 h')
      spawning := fun c h => (hopens _).2 (he.spawning c h)
      started := fun c hc h => (hopens _).2 (he.started c hc h) }

theorem Opened.returns {target : Text} {e e' : Endpoint} {f : Frame} {t : Thread}
    (he : Opened e) (h : Returns target e false f t e') : Opened e' := by
  cases h with
  | register hr => exact { he with }
  | reader hr => exact { he with }
  | forwarder hf => exact { he with opening := by simp, spawning := by simp }
  | keepalive hk => exact { he with }
  | data hp => exact he.setPump _ (by simp [hp])
  | close hp => exact he.setPump _ (by simp [hp])

theorem Opened.sent {target : Text} {e e' : Endpoint} {f : Frame} {t : Thread} (he : Opened e)
    (hp : Pumped e) (ht : Tabled .server e) (h : Returns target e true f t e') :
    Opened { e' with sent := e.sent ++ [f] } := by
  cases h with
  | register hr => exact { he.snoc (f := .register target) trivial (by simp) with }
  | reader hr =>
    have hplain := hp.sending f hr
    refine { he.snoc (f := f) ?_ ?_ with }
    · cases f with
      | data n bytes => exact hplain.elim
      | openStream n t => exact hplain.elim
      | _ => trivial
    · rintro n t rfl
      exact hplain
  | @forwarder n c hf =>
    obtain ⟨hc, hid, hpump⟩ := ht.opening n c hf
    have hmono : ∀ m, Opens m e.sent → Opens m (e.sent ++ [.openStream n target]) :=
      fun m h => opens_append.2 (.inl h)
    refine
      { wellOpened := he.wellOpened.snoc (he.opening n c hf)
        added := fun m h => ?_
        opening := by simp
        spawning := fun d hd => ?_
        started := fun d hd h => hmono _ (he.started d hd h) }
    · rcases opens_append.1 h with h | h
      · exact he.added m h
      · obtain ⟨t, ht⟩ := opens_singleton.1 h
        exact ⟨c, hc, hid.trans (Frame.openStream.inj ht).1⟩
    · obtain rfl := ForwarderPc.spawning.inj hd
      exact opens_append.2 (.inr (opens_singleton.2 ⟨target, by rw [hid]⟩))
  | keepalive hk => exact { he.snoc (f := .keepalive) trivial (by simp) with }
  | @data c bytes hpump =>
    have hc := ht.lt_added (c := c) (by simp [hpump])
    have hopens : Opens (e.connId c) e.sent := he.started c hc (by simp [hpump])
    exact (he.snoc (f := .data (e.connId c) bytes) hopens (by simp)).setPump _ (by simp [hpump])
  | @close c why hpump =>
    exact (he.snoc (f := .close (e.connId c) why) trivial (by simp)).setPump _ (by simp [hpump])

/-- **Every step keeps the streams in order.** -/
theorem Opened.step {target : Text} {e e' : Endpoint} {a : EndpointAct} (he : Opened e)
    (hp : Pumped e) (ht : Tabled .server e) (h : Steps .server target e a e') : Opened e' := by
  cases h with
  | dialed hside => cases hside
  | forwarder hside hm =>
    cases hm with
    | accepted hf => exact { he with opening := by simp, spawning := by simp }
    | fetched hf hpc =>
      rcases hpc with rfl | rfl <;> exact { he with opening := by simp, spawning := by simp }
    | gone hf hl => exact { he with opening := by simp, spawning := by simp }
  | allocate hside hf => exact { he with opening := by simp, spawning := by simp }
  | @add _ n hside hf =>
    obtain ⟨-, hfresh⟩ := ht.adding n hf
    refine { he with
      added := fun m h => ?_
      opening := fun m c h => ?_
      spawning := by simp
      started := fun c hc h => ?_ }
    · obtain ⟨c, hc, hid⟩ := he.added m h
      exact ⟨c, Nat.lt_succ_of_lt hc, (e.addConn_connId_of_lt n .unborn hc).trans hid⟩
    · rw [← (ForwarderPc.opening.inj h).1]
      exact he.not_opens hfresh
    · rcases Nat.lt_succ_iff_lt_or_eq.1 hc with hc | rfl
      · rw [e.addConn_connId_of_lt n .unborn hc]
        have hpump := e.addConn_pump_of_ne n .unborn (Nat.ne_of_lt hc)
        exact he.started c hc fun hp => h (hpump.trans hp)
      · exact absurd (e.addConn_pump_self n .unborn) h
  | @spawn _ c hside hf =>
    refine { he with opening := by simp, spawning := by simp, started := fun c' hc' h => ?_ }
    by_cases hc : c' = c
    · subst hc
      exact he.spawning c' hf
    · simp only [ne_eq, Function.update_of_ne hc] at h
      exact he.started c' hc' h
  | forwarderErase hside hf hl => exact { he with opening := by simp, spawning := by simp }
  | forwarderStore hside hf => exact { he with opening := by simp, spawning := by simp }
  | @recv c bytes hpump => exact { he.setPump (.sending bytes) (by simp [hpump]) with }
  | recvEnd hpump => exact he.setPump _ (by simp [hpump])
  | @exchange _ c why hpump =>
    exact { he.setPump (.erasing (!e.closed c) why) (by simp [hpump]) with }
  | @pumpErase _ c ours why hpump =>
    exact { he.setPump (if ours then .closing why else .done) (by simp [hpump]) with }
  | dropped hw ha hret => exact he.returns hret
  | transmit hw hret =>
    refine hret.transmitted (fun hret => ?_) fun hret => ?_
    · exact { he.sent hp ht hret with }
    · exact { he.returns hret with }
  | _ => exact { he with }

end Endpoint

end ZeroTouch
