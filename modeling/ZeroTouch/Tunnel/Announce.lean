import ZeroTouch.Tunnel.Streams
/-!
# The end of a stream is announced once

A pump that comes to the end of its socket, and a read loop whose write to
that socket fails, find out the same thing, and each sends a `CLOSE`. They
meet at the connection's flag: whoever sets it announces the end. A pump
looks at what the flag was; a read loop does not look at what `CloseConn`
found, and where the pump was first it announces the end a second time
(`not_announced_once_writeFailed`). Where it is the read loop that finds
the stream and sets the flag, the end is announced once (`announced_once`).
-/

namespace ZeroTouch

/-- A `CLOSE` that announces the end of stream `n`, and is no answer to
`DATA` of an unknown stream. -/
def Frame.announces (n : ℕ) : Frame → Bool
  | .close id why => decide (id = n ∧ why ≠ .unknown)
  | _ => false

/-- How often the end of stream `n` is announced. -/
def announcements (n : ℕ) (fs : List Frame) : ℕ := fs.countP (Frame.announces n)

/-- A frame that announces the end of a stream is about that stream. -/
theorem Frame.stream_of_announces {n : ℕ} {f : Frame} (h : f.announces n = true) :
    f.stream = some n := by
  cases f with
  | close id why => exact congrArg some (of_decide_eq_true h).1
  | _ => cases h

theorem announces_of_stream_ne {n : ℕ} {f : Frame} (h : f.stream ≠ some n) :
    f.announces n = false :=
  Bool.eq_false_iff.2 fun ha => h (Frame.stream_of_announces ha)

theorem announcements_snoc (n : ℕ) (fs : List Frame) (f : Frame) :
    announcements n (fs ++ [f]) = announcements n fs + (f.announces n).toNat := by
  rw [announcements, List.countP_append, List.countP_singleton]
  cases f.announces n <;> rfl

theorem announcements_eq_zero {n : ℕ} {fs : List Frame} (h : ∀ f ∈ fs, f.stream ≠ some n) :
    announcements n fs = 0 :=
  List.countP_eq_zero.2 fun f hf ha => h f hf (Frame.stream_of_announces ha)

/-- Two different announcements are two. -/
theorem two_le_announcements {n : ℕ} {fs : List Frame} {f g : Frame} (hf : f ∈ fs) (hg : g ∈ fs)
    (hne : f ≠ g) (haf : f.announces n = true) (hag : g.announces n = true) :
    2 ≤ announcements n fs := by
  obtain ⟨before, rest, rfl⟩ := List.append_of_mem hf
  have hmem : g ∈ before ++ rest := by simpa [hne.symm] using hg
  have hpos : 0 < announcements n (before ++ rest) := List.countP_pos_iff.2 ⟨g, hmem, hag⟩
  simp only [announcements, List.countP_append, List.countP_cons_of_pos haf] at hpos ⊢
  omega

/-- The announcements a pump is about to make. -/
def PumpPc.due : PumpPc → ℕ
  | .erasing true _ => 1
  | .closing _ => 1
  | _ => 0

/-- The announcements of stream `n` the read loop is about to make. -/
def ReaderPc.due (n : ℕ) : ReaderPc → ℕ
  | .sending f => (f.announces n).toNat
  | _ => 0

namespace Endpoint

/-- **A write that fails is dealt with in time**: the read loop's
`CloseConn` still finds the stream, and sets its flag before the pump
does. -/
def Timely (e : Endpoint) : EndpointAct → Prop
  | .reader _ =>
    match e.reader with
    | .erasing n (some _) => e.conns.lookup n ≠ none
    | .storing c (some _) => e.closed c = false
    | _ => True
  | _ => True

instance (e : Endpoint) (a : EndpointAct) : Decidable (e.Timely a) := by
  unfold Timely
  split
  · split <;> infer_instance
  · infer_instance

/-- The announcements of a connection's stream, made or about to be. -/
def announced (e : Endpoint) (c : ℕ) : ℕ :=
  announcements (e.connId c) e.sent + (e.pump c).due + e.reader.due (e.connId c)

/-- **The end of a stream is announced where its flag is set, and once.** -/
def Once (e : Endpoint) : Prop := ∀ c < e.added, e.announced c ≤ (e.closed c).toNat

theorem once_fresh (side : Side) : Once (fresh side) := by
  cases side <;> simp [Once, fresh]

/-- Announcing no more keeps the announcements in bounds. -/
theorem Once.mono {e e' : Endpoint} (he : Once e) (hadded : e'.added = e.added)
    (hle : ∀ c < e.added, e'.announced c ≤ e.announced c)
    (hclosed : ∀ c, e.closed c = true → e'.closed c = true) : Once e' := by
  intro c hc
  have hc' : c < e.added := hadded ▸ hc
  have hbound := he c hc'
  have hflag : (e.closed c).toNat ≤ (e'.closed c).toNat := by
    cases h : e.closed c with
    | false => exact Nat.zero_le _
    | true => rw [hclosed c h]
  exact (hle c hc').trans (hbound.trans hflag)

/-- The read loop goes on to send no announcement. -/
theorem Once.setReader {e : Endpoint} (he : Once e) {r : ReaderPc}
    (hr : ∀ c < e.added, r.due (e.connId c) = 0) : Once { e with reader := r } := by
  refine he.mono rfl (fun c hc => ?_) (fun _ h => h)
  have := hr c hc
  simp only [announced]
  omega

/-- A step of a pump that has no more to announce after it. -/
theorem Once.setPump {e : Endpoint} (he : Once e) {c : ℕ} {p : PumpPc}
    (hp : p.due ≤ (e.pump c).due) : Once { e with pump := Function.update e.pump c p } := by
  refine he.mono rfl (fun c' hc' => ?_) (fun _ h => h)
  have hdue : (Function.update e.pump c p c').due ≤ (e.pump c').due := by
    by_cases hc : c' = c
    · subst hc
      rwa [Function.update_self]
    · rw [Function.update_of_ne hc]
  simp only [announced]
  omega

/-- Setting a flag. -/
theorem Once.store {e : Endpoint} (he : Once e) (c : ℕ) : Once (e.store c) :=
  he.mono rfl (fun _ _ => Nat.le_refl _) fun _ h => closed_store h

/-- A new connection, of whose stream no end is announced. -/
theorem Once.addConn {e : Endpoint} (he : Once e) {n : ℕ} {p : PumpPc} (hp : p.due = 0)
    (hsent : ∀ f ∈ e.sent, f.stream ≠ some n) (hr : e.reader.due n = 0) : Once (e.addConn n p) := by
  intro c hc
  rcases Nat.lt_succ_iff_lt_or_eq.1 hc with hc | rfl
  · have hclosed : (e.addConn n p).closed c = e.closed c :=
      Function.update_of_ne (Nat.ne_of_lt hc) ..
    rw [announced, e.addConn_connId_of_lt n p hc, e.addConn_pump_of_ne n p (Nat.ne_of_lt hc),
      hclosed]
    exact he c hc
  · have hnone : announcements n (e.addConn n p).sent = 0 := announcements_eq_zero hsent
    have hreader : (e.addConn n p).reader.due n = 0 := hr
    rw [announced, e.addConn_connId_self, e.addConn_pump_self, hnone, hp, hreader]
    exact Nat.zero_le _

/-- Where the read loop goes by itself, it announces the end of no stream
that has a connection. -/
theorem due_of_moves {side : Side} {e : Endpoint} {r : ReaderPc} (ht : Tabled side e)
    (hk : Known side e) (h : ReaderMoves side e r)
    (hfound : ∀ n f, e.reader = .erasing n (some f) → r = e.reader ∨ e.conns.lookup n ≠ none)
    {c : ℕ} (hc : c < e.added) : r.due (e.connId c) = 0 := by
  cases h with
  | ended => split <;> rfl
  | asked hr hr' => rcases hr' with rfl | rfl <;> rfl
  | @refused n t why hr hwhy =>
    -- a stream that could not be dialled has no connection
    have hne : e.connId c ≠ n := by
      cases side with
      | server => exact absurd hr ((hk.server rfl).1 n t)
      | client => exact (ht.client rfl).2.2 n t hr c hc
    have hquiet : (Frame.close n why).announces (e.connId c) = false :=
      announces_of_stream_ne (by simpa [Frame.stream, eq_comm] using hne)
    rw [ReaderPc.due, hquiet]
    rfl
  | unknown => simp [ReaderPc.due, Frame.announces]
  | @gone n reply hr hl =>
    cases reply with
    | none => rfl
    | some f =>
      rcases hfound n f hr with h | h
      · exact absurd (h.trans hr) (by simp [afterClose])
      · exact absurd hl h
  | _ => rfl

/-- The return of a thread from `Send`, with nothing sent. -/
theorem Once.returns {target : Text} {e e' : Endpoint} {ok : Bool} {f : Frame} {t : Thread}
    (he : Once e) (h : Returns target e ok f t e') : Once e' := by
  cases h with
  | register =>
    exact he.setReader (r := if ok then .reading else .aborting) fun c _ => by cases ok <;> rfl
  | reader => exact he.setReader fun _ _ => rfl
  | forwarder => exact he
  | keepalive => exact he
  | data hp => exact he.setPump (by rw [hp]; cases ok <;> exact Nat.zero_le _)
  | close => exact he.setPump (Nat.zero_le _)

/-- Sending a frame that announces no end. -/
theorem Once.snoc {e : Endpoint} (he : Once e) {f : Frame} (hf : ∀ n, f.announces n = false) :
    Once { e with sent := e.sent ++ [f] } := by
  refine he.mono rfl (fun c _ => ?_) (fun _ h => h)
  simp only [announced, announcements_snoc, hf]
  exact Nat.le_refl _

/-- The return of a thread from `Send`, with its frame sent: what it was
about to announce is announced. -/
theorem Once.sent {side : Side} {target : Text} {e e' : Endpoint} {f : Frame} {t : Thread}
    (he : Once e) (ht : Tabled side e) (h : Returns target e true f t e') :
    Once { e' with sent := e.sent ++ [f] } := by
  cases h with
  | register =>
    exact (he.setReader (r := .reading) fun _ _ => rfl).snoc (f := .register target) fun _ => rfl
  | reader hr =>
    refine he.mono rfl (fun c _ => ?_) (fun _ h => h)
    simp only [announced, announcements_snoc, hr, ReaderPc.due]
    omega
  | @forwarder n => exact he.snoc (f := .openStream n target) fun _ => rfl
  | keepalive => exact he.snoc (f := .keepalive) fun _ => rfl
  | @data c bytes hp =>
    exact (he.setPump (c := c) (p := .receiving) (Nat.zero_le _)).snoc
      (f := .data (e.connId c) bytes) fun _ => rfl
  | @close c why hp =>
    have hc := ht.lt_added (c := c) (by simp [hp])
    refine he.mono rfl (fun c' hc' => ?_) (fun _ h => h)
    by_cases hcc : c' = c
    · subst hcc
      have hle := Bool.toNat_le ((Frame.close (e.connId c') why).announces (e.connId c'))
      simp only [announced, announcements_snoc, Function.update_self, hp, PumpPc.due]
      omega
    · -- another connection's stream is another stream
      have hid : e.connId c ≠ e.connId c' := fun h => hcc (ht.inj c' c hc' hc h.symm)
      have hquiet : (Frame.close (e.connId c) why).announces (e.connId c') = false :=
        announces_of_stream_ne (by simpa [Frame.stream] using hid)
      simp only [announced, announcements_snoc, Function.update_of_ne hcc, hquiet]
      exact Nat.le_refl _

/-- `CloseConn` sets the flag, and the read loop goes on to announce what it
found. -/
theorem Once.closeConn {side : Side} {e : Endpoint} (he : Once e) (ht : Tabled side e)
    (hk : Known side e) {c : ℕ} {reply : Option Frame} (hr : e.reader = .storing c reply)
    (hfirst : ∀ f, reply = some f → e.closed c = false) :
    Once { e.store c with reader := afterClose reply } := by
  obtain ⟨hc, hreply⟩ := hk.storing c reply hr
  cases reply with
  | none => exact (he.store c).setReader fun _ _ => rfl
  | some f =>
    obtain rfl := hreply f rfl
    intro c' hc'
    have hbound := he c' hc'
    show announcements (e.connId c') e.sent + (e.pump c').due +
      ((Frame.close (e.connId c) .writeFailed).announces (e.connId c')).toNat ≤
        (Function.update e.closed c true c').toNat
    by_cases hcc : c' = c
    · subst hcc
      have hle := Bool.toNat_le ((Frame.close (e.connId c') .writeFailed).announces (e.connId c'))
      rw [hfirst _ rfl, announced, Bool.toNat_false] at hbound
      rw [Function.update_self, Bool.toNat_true]
      omega
    · have hid : e.connId c ≠ e.connId c' := fun h => hcc (ht.inj c' c hc' hc h.symm)
      have hquiet : (Frame.close (e.connId c) .writeFailed).announces (e.connId c') = false :=
        announces_of_stream_ne (by simpa [Frame.stream] using hid)
      rw [announced, hr] at hbound
      rw [hquiet, Function.update_of_ne hcc]
      exact hbound

/-- **Every timely step keeps the announcements in bounds.** -/
theorem Once.step {side : Side} {target : Text} {e e' : Endpoint} {a : EndpointAct}
    (he : Once e) (ht : Tabled side e) (hk : Known side e) (ho : side = .server → Opened e)
    (h : Steps side target e a e')
    (hfound : ∀ n f, e.reader = .erasing n (some f) →
      e'.reader = e.reader ∨ e.conns.lookup n ≠ none)
    (hfirst : ∀ c f, e.reader = .storing c (some f) → e'.reader = e.reader ∨ e.closed c = false) :
    Once e' := by
  cases h with
  | @read f hr => exact he.setReader (r := .handling f) fun _ _ => rfl
  | moves reg t hm => exact he.setReader fun c hc => due_of_moves ht hk hm hfound hc
  | @dialed _ n t hside hr =>
    have hset := he.setReader (r := .reading) fun _ _ => rfl
    exact hset.addConn (p := .receiving) rfl ((hk.client hside).2.2 n t hr) rfl
  | @write _ n c k rest hr => exact he.setReader (r := .writing n c (rest.drop k)) fun _ _ => rfl
  | @erase _ n c reply hr hl => exact he.setReader (r := .storing c reply) fun _ _ => rfl
  | @store _ c reply hr =>
    refine he.closeConn ht hk hr fun f hf => ?_
    subst hf
    rcases hfirst c f hr with h | h
    · exact absurd (h.trans hr) (by simp [afterClose])
    · exact h
  | stop => exact he.setReader (r := .swapping) fun _ _ => rfl
  | abort => exact he.setReader (r := .finished) fun _ _ => rfl
  | swap => exact he.setReader (r := .closing _) fun _ _ => rfl
  | @sweep _ c taken hr => exact (he.store c).setReader (r := .closing taken) fun _ _ => rfl
  | forwarder => exact he
  | allocate => exact he
  | @add _ n hside hf =>
    subst hside
    obtain ⟨-, hfresh⟩ := ht.adding n hf
    have hclosed : ¬ Opens n e.sent := (ho rfl).not_opens hfresh
    refine he.addConn (p := .unborn) rfl (fun f hf => hk.stream_ne hclosed hf) ?_
    cases hr : e.reader with
    | sending f =>
      have hquiet : f.announces n = false := announces_of_stream_ne fun hs =>
        hclosed (hk.reader n (by rw [hr]; exact hs))
      rw [ReaderPc.due, hquiet]
      rfl
    | _ => rfl
  | @spawn _ c hside hf => exact he.setPump (c := c) (p := .receiving) (Nat.zero_le _)
  | forwarderErase => exact he
  | @forwarderStore _ c hside hf => exact he.store c
  | recv hp => exact he.setPump (p := .sending _) (Nat.zero_le _)
  | recvEnd hp => exact he.setPump (p := .exchanging _) (Nat.zero_le _)
  | @exchange _ c why hp =>
    intro c' hc'
    have hbound := he c' hc'
    show announcements (e.connId c') e.sent +
      (Function.update e.pump c (.erasing (!e.closed c) why) c').due + e.reader.due (e.connId c') ≤
        (Function.update e.closed c true c').toNat
    by_cases hcc : c' = c
    · subst hcc
      -- whoever sets the flag has announced nothing yet
      rw [announced, hp] at hbound
      rw [Function.update_self, Function.update_self]
      cases hcl : e.closed c' with
      | false =>
        have hdue : (PumpPc.erasing (!false) why).due = 1 := rfl
        rw [hcl, Bool.toNat_false] at hbound
        rw [hdue, Bool.toNat_true]
        omega
      | true =>
        rw [hcl] at hbound
        exact hbound
    · rw [Function.update_of_ne hcc, Function.update_of_ne hcc]
      exact hbound
  | @pumpErase _ c ours why hp =>
    have hdue : (if ours then PumpPc.closing why else .done).due ≤ (e.pump c).due := by
      rw [hp]
      cases ours <;> exact Nat.le_refl _
    exact he.setPump hdue
  | beat => exact he
  | lock => exact he
  | dropped hw ha hret => exact he.returns hret
  | transmit hw hret =>
    refine hret.transmitted (fun hret => ?_) fun hret => ?_
    · exact he.sent ht hret
    · have hret' := he.returns hret
      exact hret'
  | others => exact he

end Endpoint

namespace Tunnel

/-- **The writes that fail at one end are dealt with in time.** -/
def Timely (side : Side) (net : Tunnel) (a : Side × EndpointAct) : Prop :=
  a.1 = side → (net.endpoint side).Timely a.2

instance (side : Side) (net : Tunnel) (a : Side × EndpointAct) : Decidable (Timely side net a) :=
  inferInstanceAs (Decidable (_ → _))

theorem Polite.once_step {target : Side → Text} {side : Side} {net net' : Tunnel}
    {a : Side × EndpointAct} (hn : Polite net) (he : (net.endpoint side).Once)
    (ht : Timely side net a) (h : net.step target a = some net') :
    (net'.endpoint side).Once := by
  obtain ⟨side', a⟩ := a
  obtain ⟨e, hstep, rfl, -⟩ := hn.steps h
  by_cases hs : side' = side
  · subst hs
    rw [endpoint_set_self]
    have htimely := ht rfl
    refine he.step (hn.tabled side') (hn.known side') ?_ (Endpoint.steps_of_step hstep)
      (fun n f hr => ?_) fun c f hr => ?_
    · rintro rfl
      exact hn.opened
    · rcases Endpoint.reader_of_busy hstep (by rw [hr]; trivial) with h | ⟨dialed, rfl⟩
      · exact .inl h
      · simp only [Endpoint.Timely, hr] at htimely
        exact .inr htimely
    · rcases Endpoint.reader_of_busy hstep (by rw [hr]; trivial) with h | ⟨dialed, rfl⟩
      · exact .inl h
      · simp only [Endpoint.Timely, hr] at htimely
        exact .inr htimely
  · rw [endpoint_set_of_ne net (Ne.symm hs)]
    exact he

/-- **The end of a stream is announced once.** In a run in which every
write that fails is dealt with in time, an end sends at most one `CLOSE` of
a stream it held, answers to `DATA` of an unknown stream apart; so never
both a pump's and one for a failed write. -/
theorem announced_once {target : Side → Text} {side : Side} {as : List (Side × EndpointAct)}
    {net : Tunnel} (ht : Along (step target) (Timely side) {} as)
    (h : exec (step target) {} as = some net) {n : ℕ}
    (hheld : ∃ c < (net.endpoint side).added, (net.endpoint side).connId c = n) :
    announcements n (net.endpoint side).sent ≤ 1 ∧
      ∀ why, why = .eof ∨ why = .lost → .close n why ∈ (net.endpoint side).sent →
        .close n .writeFailed ∉ (net.endpoint side).sent := by
  have hinit : (endpoint {} side).Once := by
    cases side
    · exact Endpoint.once_fresh .server
    · exact Endpoint.once_fresh .client
  have hn : Polite net ∧ (net.endpoint side).Once :=
    exec_invariant_along (I := fun net => Polite net ∧ (net.endpoint side).Once)
      (fun _ _ _ hI ha hs => ⟨hI.1.step hs, hI.1.once_step hI.2 ha hs⟩)
      ⟨polite_init, hinit⟩ ht h
  obtain ⟨c, hc, rfl⟩ := hheld
  have hbound := hn.2 c hc
  have hflag := Bool.toNat_le ((net.endpoint side).closed c)
  have hone : announcements ((net.endpoint side).connId c) (net.endpoint side).sent ≤ 1 := by
    unfold Endpoint.announced at hbound
    omega
  refine ⟨hone, fun why hwhy hpump hfailed => ?_⟩
  have htwo : 2 ≤ announcements ((net.endpoint side).connId c) (net.endpoint side).sent := by
    refine two_le_announcements hpump hfailed ?_ ?_ (by simp [Frame.announces])
    · rcases hwhy with rfl | rfl <;> simp
    · rcases hwhy with rfl | rfl <;> simp [Frame.announces]
  omega

/-- The client's socket is broken: a write to it fails, and the read loop
closes the stream before its pump finds out. -/
def writeFailedFirst : List (Side × EndpointAct) :=
  helloStream.take 21 ++
    [(.client, .read (some (.data 1 [104, 105]))), (.client, .reader false), (.client, .writeFailed),
      (.client, .reader false), (.client, .reader false), (.client, .lock .reader),
      (.client, .transmit .reader true), (.client, .recvEnd 0 false), (.client, .pump 0),
      (.client, .pump 0)]

theorem announced_once_writeFailedFirst :
    Along (step fun _ => "edge-1".toList) (Timely .client) {} writeFailedFirst ∧
      ∃ net, exec (step fun _ => "edge-1".toList) {} writeFailedFirst = some net ∧
        net.client.added = 1 ∧ net.client.connId 0 = 1 ∧ net.client.pump 0 = .done ∧
        .close 1 .writeFailed ∈ net.client.sent ∧ announcements 1 net.client.sent ≤ 1 := by
  have htimely : Along (step fun _ => "edge-1".toList) (Timely .client) {} writeFailedFirst := by
    decide +kernel
  have hrun : (exec (step fun _ => "edge-1".toList) {} writeFailedFirst).any (fun net =>
      decide (net.client.added = 1 ∧ net.client.connId 0 = 1 ∧ net.client.pump 0 = .done ∧
        .close 1 .writeFailed ∈ net.client.sent)) = true := by
    decide +kernel
  obtain ⟨net, hnet, hfacts⟩ := (Option.any_eq_true _ _).1 hrun
  obtain ⟨hadded, hid, hdone, hsent⟩ := of_decide_eq_true hfacts
  have honce := announced_once htimely hnet (n := 1) ⟨0, by simp [endpoint, hadded], hid⟩
  exact ⟨htimely, net, hnet, hadded, hid, hdone, hsent, honce.1⟩

/-- **The end of a stream is announced twice.** The write fails, and before
the read loop has closed the stream its pump finds the socket at its end
too: it sets the flag and sends its `CLOSE`, and the read loop sends one
for the failed write after it. -/
theorem not_announced_once_writeFailed :
    ¬ ∀ (target : Side → Text) (side : Side) (as : List (Side × EndpointAct)) (net : Tunnel) (n : ℕ),
      exec (step target) {} as = some net →
      (∃ c < (net.endpoint side).added, (net.endpoint side).connId c = n) →
      announcements n (net.endpoint side).sent ≤ 1 := by
  intro h
  have hrun : (exec (step fun _ => "edge-1".toList) {} (helloStream.take 21 ++
      [(.client, .read (some (.data 1 [104, 105]))), (.client, .reader false),
        (.client, .writeFailed), (.client, .recvEnd 0 false), (.client, .pump 0),
        (.client, .pump 0), (.client, .lock (.pump 0)), (.client, .transmit (.pump 0) true),
        (.client, .reader false), (.client, .lock .reader),
        (.client, .transmit .reader true)])).any (fun net =>
      decide (net.client.added = 1 ∧ net.client.connId 0 = 1 ∧
        announcements 1 net.client.sent = 2)) = true := by
    decide +kernel
  obtain ⟨net, hnet, hfacts⟩ := (Option.any_eq_true _ _).1 hrun
  obtain ⟨hadded, hid, htwo⟩ := of_decide_eq_true hfacts
  have hone := h _ .client _ net 1 hnet ⟨0, by simp [endpoint, hadded], hid⟩
  have : announcements 1 net.client.sent ≤ 1 := hone
  omega

end Tunnel

end ZeroTouch
