import ZeroTouch.Tunnel.Fidelity
/-!
# The streams an end speaks of

A server speaks of a stream after it has opened it, and a client after it
was asked to open it. So a server reads of no stream that it has not
opened, a client reads the `OPEN` of a stream before anything else of it,
and what either end is asked to open it has not spoken of before.
-/

namespace ZeroTouch

/-- The `stream_id` of a frame about a stream. -/
def Frame.stream : Frame → Option ℕ
  | .openStream id _ => some id
  | .data id _ => some id
  | .close id _ => some id
  | _ => none

/-- The stream the read loop is about. -/
def ReaderPc.stream (connId : ℕ → ℕ) : ReaderPc → Option ℕ
  | .handling f => f.stream
  | .sending f => f.stream
  | .writing id _ _ => some id
  | .erasing id _ => some id
  | .storing c _ => some (connId c)
  | _ => none

namespace Endpoint

/-- The frames that open streams: a server sends them, a client receives
them. -/
def log (e : Endpoint) : Side → List Frame
  | .server => e.sent
  | .client => e.received

/-- **What an end may hear of**: a server of a stream it has opened, which
it is not asked to open; a client of a stream that is open, or that it is
asked to open. -/
def Heard (side : Side) (e : Endpoint) (f : Frame) : Prop :=
  ∀ n, f.stream = some n →
    match side with
    | .server => Opens n e.sent ∧ ∀ t, f ≠ .openStream n t
    | .client => Opens n e.received ∨ ∃ t, f = .openStream n t

/-- **An end speaks of streams that are open.** -/
structure Known (side : Side) (e : Endpoint) : Prop where
  reader : ∀ n, e.reader.stream e.connId = some n → Opens n (e.log side)
  erasing : ∀ n f, e.reader = .erasing n (some f) → f = .close n .writeFailed
  storing : ∀ c reply, e.reader = .storing c reply →
    c < e.added ∧ ∀ f, reply = some f → f = .close (e.connId c) .writeFailed
  server : side = .server → (∀ n t, e.reader ≠ .handling (.openStream n t)) ∧
    ∀ before f rest n, e.sent = before ++ f :: rest → f.stream = some n →
      Opens n before ∨ ∃ t, f = .openStream n t
  client : side = .client → (∀ n t, .openStream n t ∉ e.sent) ∧
    (∀ f ∈ e.sent, ∀ n, f.stream = some n → Opens n e.received) ∧
    ∀ n t, e.reader = .handling (.openStream n t) → ∀ f ∈ e.sent, f.stream ≠ some n

theorem known_fresh (side : Side) : Known side (fresh side) := by
  cases side <;> constructor <;> simp [fresh, ReaderPc.stream]

/-- A server has sent nothing of a stream that is not open. -/
theorem Known.stream_ne {e : Endpoint} (he : Known .server e) {n : ℕ} (hn : ¬ Opens n e.sent)
    {f : Frame} (hf : f ∈ e.sent) : f.stream ≠ some n := by
  intro hs
  obtain ⟨before, rest, heq⟩ := List.append_of_mem hf
  rcases (he.server rfl).2 before f rest n heq hs with h | ⟨t, rfl⟩
  · exact hn (h.mono fun g hg => by simp [heq, hg])
  · exact hn ⟨t, hf⟩

/-- What a thread returns from sending is of an open stream, or opens it. -/
theorem Known.stream_of_returns {side : Side} {target : Text} {e e' : Endpoint} {ok : Bool}
    {f : Frame} {t : Thread} {n : ℕ} (he : Known side e) (ht : Tabled side e)
    (ho : side = .server → Opened e) (h : Returns target e ok f t e') (hf : f.stream = some n) :
    Opens n (e.log side) ∨ (side = .server ∧ f = .openStream n target) := by
  -- a pump that has started is of a stream that is open
  have hpump : ∀ c, e.pump c ≠ .unborn → Opens (e.connId c) (e.log side) := by
    intro c hc
    have hlt := ht.lt_added hc
    cases side with
    | server => exact (ho rfl).started c hlt hc
    | client => exact (ht.client rfl).2.1 c hlt
  cases h with
  | register => cases hf
  | keepalive => cases hf
  | reader hr => exact .inl (he.reader n (by rw [hr]; exact hf))
  | @forwarder m c hfw =>
    obtain rfl : m = n := Option.some.inj hf
    cases side with
    | server => exact .inr ⟨rfl, rfl⟩
    | client => exact absurd (hfw.symm.trans (ht.client rfl).1) (by simp)
  | @data c bytes hp =>
    obtain rfl : e.connId c = n := Option.some.inj hf
    exact .inl (hpump c (by simp [hp]))
  | @close c why hp =>
    obtain rfl : e.connId c = n := Option.some.inj hf
    exact .inl (hpump c (by simp [hp]))

/-! ## Every step -/

/-- A step of the read loop. -/
theorem Known.setReader {side : Side} {e : Endpoint} (he : Known side e) {r : ReaderPc}
    (hs : ∀ n, r.stream e.connId = some n → Opens n (e.log side))
    (hr : ∀ n f, r = .erasing n (some f) → f = .close n .writeFailed)
    (hc : ∀ c reply, r = .storing c reply →
      c < e.added ∧ ∀ f, reply = some f → f = .close (e.connId c) .writeFailed)
    (hh : ∀ n t, r ≠ .handling (.openStream n t)) : Known side { e with reader := r } :=
  { reader := fun n hn => by
      have := hs n hn
      cases side <;> exact this
    erasing := hr
    storing := hc
    server := fun hside => ⟨hh, (he.server hside).2⟩
    client := fun hside => ⟨(he.client hside).1, (he.client hside).2.1,
      fun n t h => absurd h (hh n t)⟩ }

/-- The read loop goes on to something that is about no stream. -/
theorem Known.setReader_none {side : Side} {e : Endpoint} (he : Known side e) {r : ReaderPc}
    (hs : r.stream e.connId = none) : Known side { e with reader := r } := by
  refine he.setReader (by simp [hs]) ?_ ?_ ?_
  · rintro n f rfl
    cases hs
  · rintro c reply rfl
    cases hs
  · rintro n t rfl
    cases hs

/-- The read loop goes on to send something of the stream it is about. -/
theorem Known.setReader_sending {side : Side} {e : Endpoint} (he : Known side e) {f : Frame}
    (hs : ∀ n, f.stream = some n → Opens n (e.log side)) :
    Known side { e with reader := .sending f } :=
  he.setReader hs (by simp) (by simp) (by simp)

/-- Where the read loop goes after `CloseConn` of stream `n`. -/
theorem Known.setReader_afterClose {side : Side} {e : Endpoint} (he : Known side e) {n : ℕ}
    (hn : Opens n (e.log side)) {reply : Option Frame}
    (hreply : ∀ f, reply = some f → f = .close n .writeFailed) :
    Known side { e with reader := afterClose reply } := by
  cases reply with
  | none => exact he.setReader_none rfl
  | some f =>
    obtain rfl := hreply f rfl
    refine he.setReader_sending fun m hm => ?_
    exact Option.some.inj hm ▸ hn

theorem Known.moves {side : Side} {e : Endpoint} {r : ReaderPc} (he : Known side e)
    (h : ReaderMoves side e r) : Known side { e with reader := r } := by
  have hreader := he.reader
  cases h with
  | ended => exact he.setReader_none (by split <;> rfl)
  | skipped => exact he.setReader_none rfl
  | asked hr hr' => rcases hr' with rfl | rfl <;> exact he.setReader_none rfl
  | removed => exact he.setReader_none rfl
  | registered => exact he.setReader_none rfl
  | refused hr =>
    rw [hr] at hreader
    exact he.setReader_sending hreader
  | unknown hr =>
    rw [hr] at hreader
    exact he.setReader_sending hreader
  | delivering hr =>
    rw [hr] at hreader
    exact he.setReader hreader (by simp) (by simp) (by simp)
  | delivered => exact he.setReader_none rfl
  | writeFailed hr =>
    rw [hr] at hreader
    exact he.setReader hreader (by simp) (by simp) (by simp)
  | closed hr =>
    rw [hr] at hreader
    exact he.setReader hreader (by simp) (by simp) (by simp)
  | @gone n reply hr hl =>
    rw [hr] at hreader
    exact he.setReader_afterClose (hreader n rfl) fun f hf => he.erasing n f (by rw [hr, hf])
  | unwound => exact he.setReader_none rfl
  | swept => exact he.setReader_none rfl

/-- A new connection changes nothing of what the read loop is about. -/
theorem Known.addConn {side : Side} {e : Endpoint} (he : Known side e) (n : ℕ) (p : PumpPc) :
    Known side (e.addConn n p) := by
  have hlt : ∀ c reply, e.reader = .storing c reply →
      (e.addConn n p).connId c = e.connId c := fun c reply hr =>
    e.addConn_connId_of_lt n p (he.storing c reply hr).1
  have hstream : e.reader.stream (e.addConn n p).connId = e.reader.stream e.connId := by
    cases hr : e.reader with
    | storing c reply => exact congrArg some (hlt c reply hr)
    | _ => rfl
  refine
    { reader := fun m hm => ?_
      erasing := he.erasing
      storing := fun c reply hr => ?_
      server := he.server
      client := he.client }
  · have := he.reader m (hstream ▸ hm)
    cases side <;> exact this
  · obtain ⟨hc, hreply⟩ := he.storing c reply hr
    exact ⟨Nat.lt_succ_of_lt hc, fun f hf => by rw [hlt c reply hr, hreply f hf]⟩

/-- The return from `Send` leaves an end's streams known. -/
theorem Known.returns {side : Side} {target : Text} {e e' : Endpoint} {ok : Bool} {f : Frame}
    {t : Thread} (he : Known side e) (h : Returns target e ok f t e') : Known side e' := by
  cases h with
  | register => exact { he.setReader_none (r := if ok then .reading else .aborting)
      (by cases ok <;> rfl) with
      reader := by cases ok <;> simp [ReaderPc.stream] }
  | reader => exact he.setReader_none rfl
  | forwarder => cases side <;> exact { he with }
  | keepalive => cases side <;> exact { he with }
  | data => cases side <;> exact { he with }
  | close => cases side <;> exact { he with }

/-- A frame is sent, of a stream that is open or that it opens. -/
theorem Known.snoc {side : Side} {e : Endpoint} (he : Known side e) {f : Frame}
    (hf : ∀ n, f.stream = some n →
      Opens n (e.log side) ∨ (side = .server ∧ ∃ t, f = .openStream n t))
    (hopen : side = .client → ∀ n t, f ≠ .openStream n t)
    (hh : side = .client → ∀ n t, e.reader = .handling (.openStream n t) → f.stream ≠ some n) :
    Known side { e with sent := e.sent ++ [f] } := by
  refine
    { reader := fun n hn => ?_
      erasing := he.erasing
      storing := he.storing
      server := fun hside => ⟨(he.server hside).1, fun before g rest n heq hg => ?_⟩
      client := fun hside => ⟨fun n t hmem => ?_, fun g hg n hn => ?_, fun n t h g hg => ?_⟩ }
  · have := he.reader n hn
    cases side with
    | server => exact opens_append.2 (.inl this)
    | client => exact this
  · subst hside
    rcases cases_snoc heq with ⟨rfl, rfl⟩ | ⟨rest', h⟩
    · exact (hf n hg).imp_right And.right
    · exact (he.server rfl).2 before g rest' n h hg
  · rcases List.mem_append.1 hmem with hmem | hmem
    · exact (he.client hside).1 n t hmem
    · exact hopen hside n t (List.mem_singleton.1 hmem).symm
  · subst hside
    rcases List.mem_append.1 hg with hg | hg
    · exact (he.client rfl).2.1 g hg n hn
    · obtain rfl := List.mem_singleton.1 hg
      rcases hf n hn with h | ⟨h, -⟩
      · exact h
      · cases h
  · rcases List.mem_append.1 hg with hg | hg
    · exact (he.client hside).2.2 n t h g hg
    · exact List.mem_singleton.1 hg ▸ hh hside n t h

/-- The return from `Send`, with its frame sent. -/
theorem Known.sent {side : Side} {target : Text} {e e' : Endpoint} {f : Frame} {t : Thread}
    (he : Known side e) (ht : Tabled side e) (hp : Pumped e) (ho : side = .server → Opened e)
    (h : Returns target e true f t e') : Known side { e' with sent := e.sent ++ [f] } := by
  have hlog : e'.log side = e.log side := by
    cases side
    · exact h.frame.1
    · exact h.frame.2
  rw [← h.frame.1]
  refine (he.returns h).snoc (fun n hn => ?_) (fun hside n t' heq => ?_) fun hside n t' hr => ?_
  · rw [hlog]
    exact (he.stream_of_returns ht ho h hn).imp_right fun ⟨hs, hf⟩ => ⟨hs, target, hf⟩
  · subst heq
    cases h with
    | reader hr => exact hp.sending _ hr
    | forwarder hf => exact absurd (hf.symm.trans (ht.client hside).1) (by simp)
  · -- a stream that is about to be dialled has no pump yet
    cases h with
    | register => simp at hr
    | reader => cases hr
    | forwarder hf => exact absurd (hf.symm.trans (ht.client hside).1) (by simp)
    | keepalive => simp [Frame.stream]
    | @data c bytes hpump =>
      have hne := (ht.client hside).2.2 n t' hr c (ht.lt_added (by simp [hpump]))
      simpa [Frame.stream] using hne
    | @close c why hpump =>
      have hne := (ht.client hside).2.2 n t' hr c (ht.lt_added (by simp [hpump]))
      simpa [Frame.stream] using hne

/-- **Every step keeps an end's streams known**, where it hears of streams
that are open. -/
theorem Known.step {side : Side} {target : Text} {e e' : Endpoint} {a : EndpointAct}
    (he : Known side e) (ht : Tabled side e) (hp : Pumped e) (ho : side = .server → Opened e)
    (h : Steps side target e a e') (hheard : ∀ f, a = .read (some f) → e.Heard side f)
    (hread : ∀ f, a = .read (some f) → side = .client → f.After e.received) : Known side e' := by
  cases h with
  | @read f hr =>
    refine
      { reader := fun n hn => ?_
        erasing := by simp
        storing := by simp
        server := fun hside => ⟨fun n t heq => ?_, (he.server hside).2⟩
        client := fun hside =>
          ⟨(he.client hside).1, fun g hg n hn => ?_, fun n t heq g hg hn => ?_⟩ }
    · have hheard := hheard f rfl n hn
      cases side with
      | server => exact hheard.1
      | client => exact opens_append.2 (hheard.imp_right opens_singleton.2)
    · subst hside
      obtain rfl := ReaderPc.handling.inj heq
      exact (hheard _ rfl n rfl).2 t rfl
    · exact ((he.client hside).2.1 g hg n hn).mono fun x hx => List.mem_append_left _ hx
    · obtain rfl := ReaderPc.handling.inj heq
      exact hread _ rfl hside ((he.client hside).2.1 g hg n hn)
  | moves reg t hm => cases side <;> exact { he.moves hm with }
  | @dialed _ n t hside hr => exact (he.addConn n .receiving).setReader_none rfl
  | @write _ n c k rest hr =>
    have hreader := he.reader
    rw [hr] at hreader
    have hset := he.setReader (r := .writing n c (rest.drop k)) hreader (by simp) (by simp)
      (by simp)
    cases side <;> exact { hset with }
  | @erase _ n c reply hr hl =>
    obtain ⟨hc, hid⟩ := ht.table n c hl
    have hreader := he.reader
    rw [hr] at hreader
    have hset : Known side { e with reader := .storing c reply } := by
      refine he.setReader (fun m hm => hreader m ?_) (by simp) (fun d reply' heq => ?_) (by simp)
      · rw [← hm, ReaderPc.stream, ReaderPc.stream, hid]
      · obtain ⟨rfl, rfl⟩ := ReaderPc.storing.inj heq
        exact ⟨hc, fun f hf => by rw [hid, he.erasing n f (by rw [hr, hf])]⟩
    cases side <;> exact { hset with }
  | @store _ c reply hr =>
    obtain ⟨-, hreply⟩ := he.storing c reply hr
    have hset := he.setReader_afterClose (he.reader (e.connId c) (by rw [hr]; rfl)) hreply
    cases side <;> exact { hset with }
  | stop =>
    have hset := he.setReader_none (r := .swapping) rfl
    cases side <;> exact { hset with }
  | abort =>
    have hset := he.setReader_none (r := .finished) rfl
    cases side <;> exact { hset with }
  | swap =>
    have hset := he.setReader_none (r := .closing (e.conns.entries.map fun entry => entry.2)) rfl
    cases side <;> exact { hset with }
  | @sweep _ c taken hr =>
    have hset := he.setReader_none (r := .closing taken) rfl
    cases side <;> exact { hset with }
  | @add _ n hside hf =>
    have hadd := he.addConn n .unborn
    cases side <;> exact { hadd with }
  | dropped hw ha hret => exact he.returns hret
  | transmit hw hret =>
    refine hret.transmitted (fun hret => ?_) fun hret => ?_
    · have hsent := he.sent ht hp ho hret
      cases side <;> exact { hsent with }
    · have hret' := he.returns hret
      cases side <;> exact { hret' with }
  | _ => cases side <;> exact { he with }

end Endpoint

namespace Tunnel

/-! ## Both ends -/

/-- Both ends speak of streams that are open. -/
structure Polite (net : Tunnel) : Prop extends Sound net where
  known : ∀ side, Endpoint.Known side (net.endpoint side)

theorem polite_init : Polite {} where
  toSound := sound_init
  known := by
    rintro (_ | _)
    · exact Endpoint.known_fresh .server
    · exact Endpoint.known_fresh .client

/-- **What an end reads is of a stream it knows.** -/
theorem Polite.heard {net : Tunnel} (hn : Polite net) {side : Side} {f : Frame}
    (h : net.delivers side (.read (some f))) : (net.endpoint side).Heard side f := by
  obtain ⟨rest, hsplit⟩ := hn.split h
  intro n hf
  cases side with
  | server =>
    -- the client was asked to open the stream, and asks for none itself
    have hmem : f ∈ net.client.sent := by
      have : net.client.sent = net.server.received ++ f :: rest := hsplit
      simp [this]
    obtain ⟨hopen, hsent, -⟩ := (hn.known .client).client rfl
    refine ⟨?_, ?_⟩
    · exact (hsent f hmem n hf).mono fun g hg => (hn.fifo .client).subset hg
    · rintro t rfl
      exact hopen n t hmem
  | client => exact ((hn.known .server).server rfl).2 _ f rest n hsplit hf

/-- A step of the tunnel is one of an end, which hears what it may. -/
theorem Polite.steps {target : Side → Text} {net net' : Tunnel} {side : Side} {a : EndpointAct}
    (hn : Polite net) (h : net.step target (side, a) = some net') :
    ∃ e, (net.endpoint side).step side (target side) a = some e ∧ net' = net.set side e ∧
      (∀ f, a = .read (some f) → (net.endpoint side).Heard side f) ∧
      ∀ f, a = .read (some f) → side = .client → f.After (net.endpoint side).received := by
  simp only [Tunnel.step] at h
  split at h
  case isFalse => cases h
  case isTrue hdel =>
    obtain ⟨e, he, rfl⟩ := Option.map_eq_some_iff.1 h
    refine ⟨e, he, rfl, ?_, ?_⟩
    · rintro f rfl
      exact hn.heard hdel
    · rintro f rfl rfl
      exact hn.expected hdel

/-- **Every step of either end keeps both polite.** -/
theorem Polite.step {target : Side → Text} {net net' : Tunnel} {a : Side × EndpointAct}
    (hn : Polite net) (h : net.step target a = some net') : Polite net' := by
  obtain ⟨side, a⟩ := a
  have hsound := hn.toSound.step h
  obtain ⟨e, he, rfl, hheard, hread⟩ := hn.steps h
  have hknown : Endpoint.Known side e := by
    refine (hn.known side).step (hn.tabled side) (hn.pumped side) ?_ (Endpoint.steps_of_step he)
      hheard hread
    rintro rfl
    exact hn.opened
  exact { hsound with known := forall_set hknown hn.known }

end Tunnel

end ZeroTouch
