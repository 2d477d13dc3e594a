import ZeroTouch.Tunnel.Bindings
import ZeroTouch.Tunnel.Ownership
/-!
# Agreement at rest

Both ends keep a table of the streams they hold, and nothing but the frames
between them keeps the two alike. While frames are under way they differ:
a stream is opened at one end first, and closed at one end first. Where the
tunnel lasts and comes to rest they agree (`agreed_at_rest`). An end that
has dropped a stream has announced it, or was told; and an end that is told
drops it. So where nothing is under way a stream is held by both ends, with
all that was read at either written at the other, or it is closed at both.
-/

namespace ZeroTouch

/-- The step leaves the session as it is: its stream does not end, and no
write to it fails. -/
def EndpointAct.lasting : EndpointAct → Bool
  | .read none => false
  | .transmit _ ok => ok
  | _ => true

/-- The read loop has not come to its end. -/
def ReaderPc.looping : ReaderPc → Bool
  | .unwinding | .stopping | .aborting | .swapping | .closing _ | .finished => false
  | _ => true

/-- The pump has taken its stream out of the table. -/
def PumpPc.out : PumpPc → Bool
  | .closing _ | .done => true
  | _ => false

namespace Endpoint

/-! ## An end that lasts -/

/-- **The end stands**: no teardown has begun, and no stream is taken back
that could not be opened. -/
structure Standing (e : Endpoint) : Prop where
  alive : e.alive = true
  reader : e.reader.looping = true
  erasing : ∀ n, e.forwarder ≠ .erasing n
  storing : ∀ c, e.forwarder ≠ .storing c

theorem standing_fresh (side : Side) : Standing (fresh side) := by
  cases side <;> constructor <;> simp [fresh, ReaderPc.looping]

theorem looping_of_handle (side : Side) (target : Text) (e : Endpoint) (dialed : Bool) (f : Frame) :
    (e.handle side target dialed f).reader.looping = true := by
  cases f <;> simp only [handle]
  all_goals repeat' split
  all_goals rfl

/-- The read loop leaves its loop where its stream ends, or where it could
not register. -/
theorem looping_of_step {side : Side} {target : Text} {e e' : Endpoint} {a : EndpointAct}
    (h : e.step side target a = some e') (halive : e.alive = true)
    (hr : e.reader.looping = true) (ha : a.lasting = true) : e'.reader.looping = true := by
  have hreturns : ∀ {f t e''}, Returns target e true f t e'' → e''.reader.looping = true := by
    intro f t e'' hret
    cases hret with
    | register => rfl
    | reader => rfl
    | _ => exact hr
  cases a with
  | read f =>
    simp only [step] at h
    split at h
    case h_1 => exact Option.some.inj h ▸ rfl
    case h_2 => cases ha
    case h_3 => cases h
  | reader dialed =>
    simp only [step, readerStep] at h
    split at h
    case h_1 f hf => exact Option.some.inj h ▸ looping_of_handle side target e dialed f
    case h_5 n reply hf =>
      split at h
      case h_1 =>
        obtain rfl := Option.some.inj h
        cases reply <;> rfl
      case h_2 => exact Option.some.inj h ▸ rfl
    case h_6 c reply hf =>
      obtain rfl := Option.some.inj h
      cases reply <;> rfl
    case h_7 hf => simp [hf, ReaderPc.looping] at hr
    case h_8 hf => simp [hf, ReaderPc.looping] at hr
    case h_9 hf => simp [hf, ReaderPc.looping] at hr
    case h_10 hf => simp [hf, ReaderPc.looping] at hr
    case h_11 hf => simp [hf, ReaderPc.looping] at hr
    case h_12 hf => simp [hf, ReaderPc.looping] at hr
    case h_13 => cases h
    all_goals exact Option.some.inj h ▸ rfl
  | lock t =>
    simp only [step, halive] at h
    split at h
    case h_1 => exact Option.some.inj h ▸ hr
    case h_2 => cases h
  | transmit t ok =>
    obtain rfl : ok = true := ha
    simp only [step] at h
    split at h
    case h_1 f hs =>
      split at h
      case isTrue =>
        have hret := hreturns (returns_of_sending hs true)
        exact Option.some.inj h ▸ hret
      case isFalse => cases h
    case h_2 => cases h
  | _ =>
    simp only [step, forwarderStep, pumpStep] at h
    repeat' split at h
    all_goals first
      | exact Option.some.inj h ▸ hr
      | exact Option.some.inj h ▸ rfl
      | cases h

theorem Standing.step {side : Side} {target : Text} {e e' : Endpoint} {a : EndpointAct}
    (he : Standing e) (h : e.step side target a = some e') (ha : a.lasting = true) :
    Standing e' := by
  have hreader := looping_of_step h he.alive he.reader ha
  have hlooping : ∀ {r : ReaderPc}, e.reader = r → r.looping = true := fun hr => hr ▸ he.reader
  cases steps_of_step h with
  | stop hr => exact absurd (hlooping hr) (by simp [ReaderPc.looping])
  | abort hr => exact absurd (hlooping hr) (by simp [ReaderPc.looping])
  | forwarder _ hm =>
    cases hm with
    | fetched _ hpc =>
      rcases hpc with rfl | rfl <;> exact { he with erasing := by simp, storing := by simp }
    | _ => exact { he with erasing := by simp, storing := by simp }
  | forwarderErase _ hf => exact absurd hf (he.erasing _)
  | forwarderStore _ hf => exact absurd hf (he.storing _)
  | dropped _ hdead => exact absurd he.alive (by simp [hdead])
  | @transmit t f ok e'' hw hret =>
    obtain rfl : ok = true := ha
    cases hret with
    | forwarder hf => exact ⟨he.alive, hreader, by simp, by simp⟩
    | _ => exact ⟨he.alive, hreader, he.erasing, he.storing⟩
  | allocate => exact ⟨he.alive, hreader, by simp, by simp⟩
  | add => exact ⟨he.alive, hreader, by simp, by simp⟩
  | spawn => exact ⟨he.alive, hreader, by simp, by simp⟩
  | _ => exact ⟨he.alive, hreader, he.erasing, he.storing⟩

/-! ## What a step does to one stream -/

/-- A write fails: after `Shutdown`, or of itself. -/
def Fails (e : Endpoint) (a : EndpointAct) : Prop :=
  e.alive = false ∨ ∃ t, a = .transmit t false

theorem Standing.not_fails {e : Endpoint} {a : EndpointAct} (he : Standing e)
    (ha : a.lasting = true) : ¬ e.Fails a := by
  rintro (hdead | ⟨t, rfl⟩)
  · exact absurd he.alive (by simp [hdead])
  · cases ha

/-- **What a step does to a pump.** -/
inductive PumpMoves (e : Endpoint) (a : EndpointAct) (e' : Endpoint) (c : ℕ) :
    PumpPc → PumpPc → Prop
  | same {p : PumpPc} : PumpMoves e a e' c p p
  | spawned : PumpMoves e a e' c .unborn .receiving
  | received (bytes : Bytes) : PumpMoves e a e' c .receiving (.sending bytes)
  | ended (why : CloseReason) : PumpMoves e a e' c .receiving (.exchanging why)
  | sent {bytes : Bytes} : e'.sent = e.sent ++ [.data (e.connId c) bytes] →
      PumpMoves e a e' c (.sending bytes) .receiving
  | lost {bytes : Bytes} : e.Fails a → PumpMoves e a e' c (.sending bytes) (.exchanging .lost)
  | exchanged {why : CloseReason} :
      PumpMoves e a e' c (.exchanging why) (.erasing (!e.closed c) why)
  | erased {ours : Bool} {why : CloseReason} : e'.conns.lookup (e.connId c) = none →
      PumpMoves e a e' c (.erasing ours why) (if ours then .closing why else .done)
  | closed {why : CloseReason} : e'.sent = e.sent ++ [.close (e.connId c) why] →
      PumpMoves e a e' c (.closing why) .done
  | dropped {why : CloseReason} : e.Fails a → PumpMoves e a e' c (.closing why) .done

/-- A step of one pump leaves the others alone. -/
theorem PumpMoves.update {e e' : Endpoint} {a : EndpointAct} {c d : ℕ} {p : PumpPc}
    (h : PumpMoves e a e' d (e.pump d) p) :
    PumpMoves e a e' c (e.pump c) (Function.update e.pump d p c) := by
  by_cases hc : c = d
  · subst hc
    rwa [Function.update_self]
  · rw [Function.update_of_ne hc]
    exact .same

theorem Steps.pump {side : Side} {target : Text} {e e' : Endpoint} {a : EndpointAct}
    (h : Steps side target e a e') (ht : Tabled side e) (c : ℕ) :
    PumpMoves e a e' c (e.pump c) (e'.pump c) := by
  cases h with
  | dialed =>
    refine PumpMoves.update ?_
    rw [ht.unborn e.added (Nat.le_refl _)]
    exact .spawned
  | add =>
    refine PumpMoves.update ?_
    rw [ht.unborn e.added (Nat.le_refl _)]
    exact .same
  | @spawn _ d _ hf =>
    refine PumpMoves.update ?_
    rw [(ht.spawning d hf).2]
    exact .spawned
  | @recv d bytes hp =>
    refine PumpMoves.update ?_
    rw [hp]
    exact .received bytes
  | @recvEnd _ d why hp =>
    refine PumpMoves.update ?_
    rw [hp]
    exact .ended why
  | @exchange _ d why hp =>
    refine PumpMoves.update ?_
    rw [hp]
    exact .exchanged
  | @pumpErase _ d ours why hp =>
    refine PumpMoves.update ?_
    rw [hp]
    exact .erased (AList.lookup_erase ..)
  | dropped _ hdead hret =>
    cases hret with
    | @data d bytes hp =>
      refine PumpMoves.update ?_
      rw [hp]
      exact .lost (.inl hdead)
    | @close d why hp =>
      refine PumpMoves.update ?_
      rw [hp]
      exact .dropped (.inl hdead)
    | _ => exact .same
  | @transmit t f ok e'' hw hret =>
    cases hret with
    | @data d bytes hp =>
      refine PumpMoves.update ?_
      rw [hp]
      cases ok
      · exact .lost (.inr ⟨_, rfl⟩)
      · exact .sent rfl
    | @close d why hp =>
      refine PumpMoves.update ?_
      rw [hp]
      cases ok
      · exact .dropped (.inr ⟨_, rfl⟩)
      · exact .closed rfl
    | _ => exact .same
  | _ => exact .same

/-- The read loop comes to send a frame by itself, or after `CloseConn`. -/
theorem Steps.reader_sends {side : Side} {target : Text} {e e' : Endpoint} {a : EndpointAct}
    (h : Steps side target e a e') {f : Frame} (hr : e'.reader = .sending f) :
    e.reader = .sending f ∨ (ReaderMoves side e (.sending f) ∧ e'.conns = e.conns) ∨
      ∃ c, e.reader = .storing c (some f) := by
  cases h with
  | moves _ _ hm => exact .inr (.inl ⟨hr ▸ hm, rfl⟩)
  | @store _ c reply hs =>
    cases reply with
    | none => cases hr
    | some g =>
      obtain rfl : g = f := ReaderPc.sending.inj hr
      exact .inr (.inr ⟨c, hs⟩)
  | read => cases hr
  | dialed => cases hr
  | write => cases hr
  | erase => cases hr
  | stop => cases hr
  | abort => cases hr
  | swap => cases hr
  | sweep => cases hr
  | dropped _ _ hret =>
    cases hret with
    | register => cases hr
    | reader => cases hr
    | _ => exact .inl hr
  | @transmit t g ok e'' _ hret =>
    cases hret with
    | register => cases ok <;> cases hr
    | reader => cases hr
    | _ => exact .inl hr
  | _ => exact .inl hr

/-- The read loop takes a connection out of the table by erasing its
stream. -/
theorem Steps.reader_stores {side : Side} {target : Text} {e e' : Endpoint} {a : EndpointAct}
    (h : Steps side target e a e') {c : ℕ} {reply : Option Frame}
    (hr : e'.reader = .storing c reply) :
    e.reader = .storing c reply ∨ ∃ n, e.reader = .erasing n reply ∧
      e.conns.lookup n = some c ∧ e'.conns.lookup n = none := by
  cases h with
  | moves _ _ hm =>
    have hm : ReaderMoves side e (.storing c reply) := hr ▸ hm
    generalize hstart : ReaderPc.storing c reply = r at hm
    cases hm with
    | ended => cases side <;> cases hstart
    | asked _ hr' => rcases hr' with rfl | rfl <;> cases hstart
    | @gone _ reply' => cases reply' <;> cases hstart
    | _ => cases hstart
  | @erase _ n d reply' hin hl =>
    obtain ⟨rfl, rfl⟩ := ReaderPc.storing.inj hr
    exact .inr ⟨n, hin, hl, AList.lookup_erase ..⟩
  | @store _ d reply' => cases reply' <;> cases hr
  | read => cases hr
  | dialed => cases hr
  | write => cases hr
  | stop => cases hr
  | abort => cases hr
  | swap => cases hr
  | sweep => cases hr
  | dropped _ _ hret =>
    cases hret with
    | register => cases hr
    | reader => cases hr
    | _ => exact .inl hr
  | @transmit t g ok e'' _ hret =>
    cases hret with
    | register => cases ok <;> cases hr
    | reader => cases hr
    | _ => exact .inl hr
  | _ => exact .inl hr

/-- The read loop comes to a stream that was closed where it has a `CLOSE`
in hand. -/
theorem Steps.reader_erases {side : Side} {target : Text} {e e' : Endpoint} {a : EndpointAct}
    (h : Steps side target e a e') {n : ℕ} (hr : e'.reader = .erasing n none) :
    e.reader = .erasing n none ∨ ∃ why, e.reader = .handling (.close n why) := by
  cases h with
  | moves _ _ hm =>
    have hm : ReaderMoves side e (.erasing n none) := hr ▸ hm
    generalize hstart : ReaderPc.erasing n none = r at hm
    cases hm with
    | ended => cases side <;> cases hstart
    | asked _ hr' => rcases hr' with rfl | rfl <;> cases hstart
    | @gone _ reply => cases reply <;> cases hstart
    | closed hin =>
      obtain ⟨rfl, -⟩ := ReaderPc.erasing.inj hstart
      exact .inr ⟨_, hin⟩
    | _ => cases hstart
  | @store _ c reply => cases reply <;> cases hr
  | read => cases hr
  | dialed => cases hr
  | write => cases hr
  | erase => cases hr
  | stop => cases hr
  | abort => cases hr
  | swap => cases hr
  | sweep => cases hr
  | dropped _ _ hret =>
    cases hret with
    | register => cases hr
    | reader => cases hr
    | _ => exact .inl hr
  | @transmit t g ok e'' _ hret =>
    cases hret with
    | register => cases ok <;> cases hr
    | reader => cases hr
    | _ => exact .inl hr
  | _ => exact .inl hr

/-- The end is about to add a connection under stream `n`. -/
inductive Adding (n : ℕ) (e : Endpoint) : Prop
  | forwarder : e.forwarder = .adding n → Adding n e
  | dialing {t : Text} : e.reader = .handling (.openStream n t) → Adding n e

/-- A stream that is out of the table stays out, where it is not added. -/
theorem Steps.lookup_eq_none {side : Side} {target : Text} {e e' : Endpoint} {a : EndpointAct}
    (h : Steps side target e a e') {n : ℕ} (hn : e.conns.lookup n = none) (ha : ¬ Adding n e) :
    e'.conns.lookup n = none := by
  have herase : ∀ m, (e.conns.erase m).lookup n = none := by
    intro m
    rw [Option.eq_none_iff_forall_ne_some]
    intro c hc
    exact absurd (hn.symm.trans (lookup_erase_eq_some.1 hc).2) (by simp)
  cases h with
  | @dialed _ m t hside hr =>
    have hne : n ≠ m := by
      rintro rfl
      exact ha (.dialing hr)
    exact (AList.lookup_insert_ne hne).trans hn
  | @add _ m hside hf =>
    have hne : n ≠ m := by
      rintro rfl
      exact ha (.forwarder hf)
    exact (AList.lookup_insert_ne hne).trans hn
  | erase => exact herase _
  | swap => exact AList.lookup_empty _
  | forwarderErase => exact herase _
  | pumpErase => exact herase _
  | dropped _ _ hret => cases hret <;> exact hn
  | transmit _ hret => cases hret <;> exact hn
  | _ => exact hn

/-- A stream that is open, and not just being opened, is not added again. -/
theorem not_adding {side : Side} {e : Endpoint} (ht : Tabled side e) (hk : Known side e)
    (ho : side = .server → Opened e) {n : ℕ} (hopen : Opens n (e.log side))
    (hr : side = .client → ∀ t, e.reader ≠ .handling (.openStream n t)) : ¬ Adding n e := by
  rintro (hf | hf)
  · cases side with
    | server => exact (ho rfl).not_opens (ht.adding n hf).2 hopen
    | client => exact absurd (hf.symm.trans (ht.client rfl).1) (by simp)
  · cases side with
    | server => exact (hk.server rfl).1 n _ hf
    | client => exact hr rfl _ hf

/-- What an end has sent of is open. -/
theorem Known.opens_of_sent {side : Side} {e : Endpoint} (hk : Known side e) {f : Frame} {n : ℕ}
    (hf : f ∈ e.sent) (hn : f.stream = some n) : Opens n (e.log side) := by
  cases side with
  | server =>
    by_contra hno
    exact hk.stream_ne hno hf hn
  | client => exact (hk.client rfl).2.1 f hf n hn

/-- What a read loop is about to send of is open, and not being opened. -/
theorem Known.not_adding_of_sending {side : Side} {e : Endpoint} (hk : Known side e)
    (ht : Tabled side e) (ho : side = .server → Opened e) {f : Frame} {n : ℕ}
    (hr : e.reader = .sending f) (hn : f.stream = some n) : ¬ Adding n e := by
  have hopen : Opens n (e.log side) := hk.reader n (by rw [hr]; exact hn)
  exact not_adding ht hk ho hopen fun _ t h => absurd (hr.symm.trans h) (by simp)

/-! ## What an end has announced, it has dropped -/

theorem PumpMoves.out {e e' : Endpoint} {a : EndpointAct} {c : ℕ} {p p' : PumpPc}
    (h : PumpMoves e a e' c p p') (hp : p'.out = true) :
    p ≠ .unborn ∧ (p.out = true ∨ e'.conns.lookup (e.connId c) = none) := by
  cases h with
  | same =>
    refine ⟨?_, .inl hp⟩
    rintro rfl
    cases hp
  | erased hl => exact ⟨by simp, .inr hl⟩
  | closed => exact ⟨by simp, .inl rfl⟩
  | dropped => exact ⟨by simp, .inl rfl⟩
  | _ => cases hp

/-- **An end announces the end of a stream after it has dropped it.** -/
structure Dropped (e : Endpoint) : Prop where
  sent : ∀ n why, .close n why ∈ e.sent → e.conns.lookup n = none
  sending : ∀ n why, e.reader = .sending (.close n why) → e.conns.lookup n = none
  storing : ∀ c reply, e.reader = .storing c reply → e.conns.lookup (e.connId c) = none
  pump : ∀ c, (e.pump c).out = true → e.conns.lookup (e.connId c) = none

theorem dropped_fresh (side : Side) : Dropped (fresh side) := by
  cases side <;> constructor <;> simp [fresh, PumpPc.out]

/-- Where the read loop comes to answer with a `CLOSE`. -/
theorem ReaderMoves.lookup_eq_none {side : Side} {e : Endpoint} {r : ReaderPc}
    (h : ReaderMoves side e r) (ht : Tabled side e) (hk : Known side e) {n : ℕ} {why : CloseReason}
    (hr : r = .sending (.close n why)) : e.conns.lookup n = none := by
  cases h with
  | ended => cases side <;> cases hr
  | asked _ hr' => rcases hr' with rfl | rfl <;> cases hr
  | @refused m t _ hin =>
    obtain ⟨rfl, -⟩ := Frame.close.inj (ReaderPc.sending.inj hr)
    cases side with
    | server => exact absurd hin ((hk.server rfl).1 m t)
    | client =>
      -- a stream that is refused was never held
      rw [Option.eq_none_iff_forall_ne_some]
      intro c hc
      obtain ⟨hlt, hid⟩ := ht.table m c hc
      exact (ht.client rfl).2.2 m t hin c hlt hid
  | unknown _ hl =>
    obtain ⟨rfl, -⟩ := Frame.close.inj (ReaderPc.sending.inj hr)
    exact hl
  | @gone m reply hin hl =>
    cases reply with
    | none => cases hr
    | some f =>
      have hf := hk.erasing m f hin
      have heq : f = .close n why := ReaderPc.sending.inj hr
      obtain ⟨rfl, -⟩ := Frame.close.inj (hf.symm.trans heq)
      exact hl
  | registered => cases ReaderPc.sending.inj hr
  | _ => cases hr

theorem Dropped.step {side : Side} {target : Text} {e e' : Endpoint} {a : EndpointAct}
    (he : Dropped e) (ht : Tabled side e) (hk : Known side e) (ho : side = .server → Opened e)
    (h : Steps side target e a e') : Dropped e' := by
  obtain ⟨hid, hkeeps⟩ := ht.keeps h
  have hsent : ∀ n why, .close n why ∈ e.sent → e'.conns.lookup n = none := by
    intro n why hmem
    refine h.lookup_eq_none (he.sent n why hmem) ?_
    refine not_adding ht hk ho (hk.opens_of_sent hmem rfl) fun hside t hr => ?_
    exact (hk.client hside).2.2 n t hr _ hmem rfl
  refine ⟨fun n why hmem => ?_, fun n why hr => ?_, fun c reply hr => ?_, fun c hp => ?_⟩
  · rcases h.sends with heq | ⟨f, t, e'', hret, -, -, heq⟩
    · exact hsent n why (heq ▸ hmem)
    · rw [heq] at hmem
      rcases List.mem_append.1 hmem with hmem | hmem
      · exact hsent n why hmem
      · obtain rfl := List.mem_singleton.1 hmem
        generalize hf : Frame.close n why = f at hret
        cases hret with
        | reader hr =>
          subst hf
          exact h.lookup_eq_none (he.sending n why hr) (hk.not_adding_of_sending ht ho hr rfl)
        | @close c why' hp =>
          obtain ⟨rfl, -⟩ := Frame.close.inj hf
          exact hkeeps c (ht.lt_added (by simp [hp])) (he.pump c (by rw [hp]; rfl))
        | _ => cases hf
  · rcases h.reader_sends hr with hr' | ⟨hm, hconns⟩ | ⟨c, hs⟩
    · exact h.lookup_eq_none (he.sending n why hr') (hk.not_adding_of_sending ht ho hr' rfl)
    · exact hconns ▸ hm.lookup_eq_none ht hk rfl
    · obtain ⟨hc, hreply⟩ := hk.storing c _ hs
      obtain ⟨rfl, -⟩ := Frame.close.inj (hreply _ rfl)
      exact hkeeps c hc (he.storing c _ hs)
  · rcases h.reader_stores hr with hs | ⟨n, hin, hl, hl'⟩
    · have hc := (hk.storing c reply hs).1
      rw [hid c hc]
      exact hkeeps c hc (he.storing c reply hs)
    · obtain ⟨hc, rfl⟩ := ht.table n c hl
      rw [hid c hc]
      exact hl'
  · obtain ⟨hborn, hout⟩ := (h.pump ht c).out hp
    have hc := ht.lt_added hborn
    rw [hid c hc]
    rcases hout with hout | hl
    · exact hkeeps c hc (he.pump c hout)
    · exact hl

/-! ## What an end is told, it does -/

/-- The read loop comes to `CloseConn` of a stream that it was told is
closed. -/
theorem reader_of_close {side : Side} {target : Text} {e e' : Endpoint} {a : EndpointAct}
    (h : e.step side target a = some e') {n : ℕ} {why : CloseReason}
    (hr : e.reader = .handling (.close n why)) :
    e'.reader = e.reader ∨ e'.reader = .erasing n none := by
  rcases reader_of_busy h (by rw [hr]; trivial) with hsame | ⟨dialed, rfl⟩
  · exact .inl hsame
  · simp only [step, readerStep, hr, handle] at h
    exact .inr (Option.some.inj h ▸ rfl)

/-- **A stream that an end was told is closed is out of its table**, or about
to be taken out. -/
structure Hearing (side : Side) (e : Endpoint) : Prop where
  opens : ∀ n why, .close n why ∈ e.received → Opens n (e.log side)
  unopened : side = .client → ∀ n t, e.reader = .handling (.openStream n t) →
    ∀ why, .close n why ∉ e.received
  dropping : ∀ n why, .close n why ∈ e.received → e.conns.lookup n = none ∨
    (∃ why', e.reader = .handling (.close n why')) ∨ e.reader = .erasing n none

theorem hearing_fresh (side : Side) : Hearing side (fresh side) := by
  cases side <;> constructor <;> simp [fresh]

theorem Steps.log_mono {side : Side} {target : Text} {e e' : Endpoint} {a : EndpointAct}
    (h : Steps side target e a e') {n : ℕ} (hn : Opens n (e.log side)) : Opens n (e'.log side) := by
  cases side with
  | server => exact hn.mono fun f hf => h.record.1.subset hf
  | client => exact hn.mono fun f hf => h.received_subset hf

/-- What is read is what the read loop has in hand next. -/
theorem reader_of_read {side : Side} {target : Text} {e e' : Endpoint} {f : Frame}
    (h : e.step side target (.read (some f)) = some e') :
    e.reader = .reading ∧ e' = { e with received := e.received ++ [f], reader := .handling f } := by
  simp only [step] at h
  split at h
  case h_1 g hr heq =>
    obtain rfl := Option.some.inj heq
    exact ⟨hr, (Option.some.inj h).symm⟩
  case h_2 heq => cases heq
  case h_3 => cases h

/-- The read loop comes to a frame by reading it. -/
theorem Steps.reader_handles {side : Side} {target : Text} {e e' : Endpoint} {a : EndpointAct}
    (h : Steps side target e a e') {f : Frame} (hr : e'.reader = .handling f) :
    e.reader = .handling f ∨ a = .read (some f) := by
  cases h with
  | read =>
    obtain rfl := ReaderPc.handling.inj hr
    exact .inr rfl
  | moves _ _ hm =>
    have hm : ReaderMoves side e (.handling f) := hr ▸ hm
    generalize hstart : ReaderPc.handling f = r at hm
    cases hm with
    | ended => cases side <;> cases hstart
    | asked _ hr' => rcases hr' with rfl | rfl <;> cases hstart
    | @gone _ reply => cases reply <;> cases hstart
    | _ => cases hstart
  | @store _ c reply => cases reply <;> cases hr
  | dialed => cases hr
  | write => cases hr
  | erase => cases hr
  | stop => cases hr
  | abort => cases hr
  | swap => cases hr
  | sweep => cases hr
  | dropped _ _ hret =>
    cases hret with
    | register => cases hr
    | reader => cases hr
    | _ => exact .inl hr
  | @transmit t g ok e'' _ hret =>
    cases hret with
    | register => cases ok <;> cases hr
    | reader => cases hr
    | _ => exact .inl hr
  | _ => exact .inl hr

theorem Hearing.read {side : Side} {e : Endpoint} (he : Hearing side e) {f : Frame}
    (hr : e.reader = .reading) (hheard : e.Heard side f)
    (hread : side = .client → f.After e.received) :
    Hearing side { e with received := e.received ++ [f], reader := .handling f } := by
  refine ⟨fun n why hmem => ?_, fun hside n t hin why hmem => ?_, fun n why hmem => ?_⟩
  · rcases List.mem_append.1 hmem with hmem | hmem
    · have hopen := he.opens n why hmem
      cases side with
      | server => exact hopen
      | client => exact opens_append.2 (.inl hopen)
    · obtain rfl := List.mem_singleton.1 hmem
      have hopen := hheard n rfl
      cases side with
      | server => exact hopen.1
      | client =>
        refine opens_append.2 (.inl ?_)
        rcases hopen with hopen | ⟨t, ht⟩
        · exact hopen
        · cases ht
  · subst hside
    obtain rfl := ReaderPc.handling.inj hin
    rcases List.mem_append.1 hmem with hmem | hmem
    · exact hread rfl (he.opens n why hmem)
    · cases List.mem_singleton.1 hmem
  · rcases List.mem_append.1 hmem with hmem | hmem
    · rcases he.dropping n why hmem with hl | ⟨why', hin⟩ | hin
      · exact .inl hl
      · exact absurd (hr.symm.trans hin) (by simp)
      · exact absurd (hr.symm.trans hin) (by simp)
    · obtain rfl := List.mem_singleton.1 hmem
      exact .inr (.inl ⟨why, rfl⟩)

/-- **Every step brings an end on with what it was told.** -/
theorem Hearing.step {side : Side} {target : Text} {e e' : Endpoint} {a : EndpointAct}
    (he : Hearing side e) (ht : Tabled side e) (hk : Known side e) (ho : side = .server → Opened e)
    (h : e.step side target a = some e') (hheard : ∀ f, a = .read (some f) → e.Heard side f)
    (hread : ∀ f, a = .read (some f) → side = .client → f.After e.received) : Hearing side e' := by
  have hsteps := steps_of_step h
  rcases hsteps.record.2 with hrec | ⟨f, rfl, -⟩
  · refine ⟨fun n why hmem => ?_, fun hside n t hin why hmem => ?_, fun n why hmem => ?_⟩
    · exact hsteps.log_mono (he.opens n why (hrec ▸ hmem))
    · rcases hsteps.reader_handles hin with hin | rfl
      · exact he.unopened hside n t hin why (hrec ▸ hmem)
      · obtain ⟨-, rfl⟩ := reader_of_read h
        simp at hrec
    · have hmem : Frame.close n why ∈ e.received := hrec ▸ hmem
      rcases he.dropping n why hmem with hl | ⟨why', hin⟩ | hin
      · refine .inl (hsteps.lookup_eq_none hl ?_)
        exact not_adding ht hk ho (he.opens n why hmem) fun hside t hin =>
          he.unopened hside n t hin why hmem
      · rcases reader_of_close h hin with hsame | hnext
        · exact .inr (.inl ⟨why', hsame.trans hin⟩)
        · exact .inr (.inr hnext)
      · rcases reader_of_busy h (by rw [hin]; trivial) with hsame | ⟨dialed, rfl⟩
        · exact .inr (.inr (hsame.trans hin))
        · simp only [Endpoint.step, readerStep, hin] at h
          refine .inl ?_
          split at h
          case h_1 hl => exact Option.some.inj h ▸ hl
          case h_2 => exact Option.some.inj h ▸ AList.lookup_erase ..
  · obtain ⟨hr, rfl⟩ := reader_of_read h
    exact he.read hr (hheard f rfl) (hread f rfl)

/-! ## What an end has dropped, it was told or has announced -/

/-- The end of the stream of connection `c` is announced, or about to be, or
was heard of. -/
inductive Announced (e : Endpoint) (c : ℕ) : Prop
  | sent {why : CloseReason} : .close (e.connId c) why ∈ e.sent → Announced e c
  | received {why : CloseReason} : .close (e.connId c) why ∈ e.received → Announced e c
  | erasing {why : CloseReason} : e.pump c = .erasing true why → Announced e c
  | closing {why : CloseReason} : e.pump c = .closing why → Announced e c
  | sending {why : CloseReason} : e.reader = .sending (.close (e.connId c) why) → Announced e c

/-- **What an end lets go of, its peer learns**, or has let go of. -/
structure Told (side : Side) (e : Endpoint) : Prop where
  erasing : ∀ n, e.reader = .erasing n none → ∃ why, .close n why ∈ e.received
  storing : ∀ c, e.reader = .storing c none → ∃ why, .close (e.connId c) why ∈ e.received
  closed : ∀ c < e.added, e.closed c = true → Announced e c
  client : side = .client → ∀ n, Opens n e.received → (∃ c < e.added, e.connId c = n) ∨
    (∃ t, e.reader = .handling (.openStream n t)) ∨
    (∃ why, e.reader = .sending (.close n why)) ∨ ∃ why, .close n why ∈ e.sent
  server : side = .server → ∀ c < e.added, Opens (e.connId c) e.sent ∨
    ∃ n, e.forwarder = .opening n c

theorem told_fresh (side : Side) : Told side (fresh side) := by
  cases side <;> constructor <;> simp [fresh]

/-- What the read loop is about to send, only `Send` takes it from. -/
theorem ReaderMoves.ne_sending {side : Side} {e : Endpoint} {r : ReaderPc}
    (h : ReaderMoves side e r) (f : Frame) : e.reader ≠ .sending f := by
  cases h <;> simp [*]

/-- What the read loop is about to send, it sends, where no write fails. -/
theorem Steps.reader_sent {side : Side} {target : Text} {e e' : Endpoint} {a : EndpointAct}
    (h : Steps side target e a e') (ha : ¬ e.Fails a) {f : Frame} (hr : e.reader = .sending f) :
    e'.reader = .sending f ∨ f ∈ e'.sent := by
  cases h with
  | moves _ _ hm => exact absurd hr (hm.ne_sending f)
  | dropped _ hdead => exact absurd (.inl hdead) ha
  | @transmit t g ok e'' hw hret =>
    obtain rfl : ok = true := by
      by_contra hok
      exact ha (.inr ⟨t, by simp [hok]⟩)
    cases hret with
    | register hr' => exact absurd (hr.symm.trans hr') (by simp)
    | reader hr' =>
      obtain rfl := ReaderPc.sending.inj (hr.symm.trans hr')
      exact .inr (List.mem_append_right _ (List.mem_singleton.2 rfl))
    | _ => exact .inl hr
  | read hr' => exact absurd (hr.symm.trans hr') (by simp)
  | dialed _ hr' => exact absurd (hr.symm.trans hr') (by simp)
  | write hr' => exact absurd (hr.symm.trans hr') (by simp)
  | erase hr' => exact absurd (hr.symm.trans hr') (by simp)
  | store hr' => exact absurd (hr.symm.trans hr') (by simp)
  | stop hr' => exact absurd (hr.symm.trans hr') (by simp)
  | abort hr' => exact absurd (hr.symm.trans hr') (by simp)
  | swap hr' => exact absurd (hr.symm.trans hr') (by simp)
  | sweep hr' => exact absurd (hr.symm.trans hr') (by simp)
  | _ => exact .inl hr

theorem Announced.step {side : Side} {target : Text} {e e' : Endpoint} {a : EndpointAct} {c : ℕ}
    (hc : Announced e c) (ht : Tabled side e) (h : Steps side target e a e') (ha : ¬ e.Fails a)
    (hlt : c < e.added) : Announced e' c := by
  have hid := (ht.keeps h).1 c hlt
  have hmove := h.pump ht c
  generalize hp' : e'.pump c = p' at hmove
  cases hc with
  | sent hmem => exact .sent (hid ▸ h.record.1.subset hmem)
  | received hmem => exact .received (hid ▸ h.received_subset hmem)
  | sending hr =>
    rcases h.reader_sent ha hr with hr | hmem
    · exact .sending (hid ▸ hr)
    · exact .sent (hid ▸ hmem)
  | erasing hp =>
    rw [hp] at hmove
    cases hmove with
    | same => exact .erasing hp'
    | erased => exact .closing hp'
  | closing hp =>
    rw [hp] at hmove
    cases hmove with
    | same => exact .closing hp'
    | closed hsent => exact .sent (hid ▸ hsent ▸ List.mem_append_right _ (List.mem_singleton.2 rfl))
    | dropped hfail => exact absurd hfail ha

theorem looping_ne {e : Endpoint} (hs : Standing e) {r : ReaderPc} (hr : r.looping = false) :
    e.reader ≠ r := by
  rintro rfl
  exact absurd hs.reader (by simp [hr])

/-- **What sets a connection's flag**, at an end that stands: the read loop,
out of `CloseConn`, or its pump. -/
theorem Steps.closes {side : Side} {target : Text} {e e' : Endpoint} {a : EndpointAct}
    (h : Steps side target e a e') (hs : Standing e) {c : ℕ} (hlt : c < e'.added)
    (hc : e'.closed c = true) : (c < e.added ∧ e.closed c = true) ∨
      (∃ reply, e.reader = .storing c reply ∧ e'.reader = afterClose reply) ∨
      ∃ why, e.pump c = .exchanging why ∧ e'.pump c = .erasing (!e.closed c) why := by
  have hupdate : ∀ {d b}, Function.update e.closed d b c = true → c ≠ d → e.closed c = true :=
    fun h hne => (Function.update_of_ne hne ..).symm.trans h
  have hadd : c < e.added + 1 → Function.update e.closed e.added false c = true →
      c < e.added ∧ e.closed c = true := by
    intro hlt hc
    have hne : c ≠ e.added := by
      rintro rfl
      simp at hc
    exact ⟨Nat.lt_of_le_of_ne (Nat.le_of_lt_succ hlt) hne, hupdate hc hne⟩
  cases h with
  | dialed => exact .inl (hadd hlt hc)
  | add => exact .inl (hadd hlt hc)
  | @store _ d reply hr =>
    by_cases hcd : c = d
    · subst hcd
      exact .inr (.inl ⟨reply, hr, rfl⟩)
    · exact .inl ⟨hlt, hupdate hc hcd⟩
  | sweep hr => exact absurd hr (looping_ne hs rfl)
  | forwarderStore _ hf => exact absurd hf (hs.storing _)
  | @exchange _ d why hp =>
    by_cases hcd : c = d
    · subst hcd
      exact .inr (.inr ⟨why, hp, Function.update_self ..⟩)
    · exact .inl ⟨hlt, hupdate hc hcd⟩
  | dropped _ hdead => exact absurd hs.alive (by simp [hdead])
  | transmit _ hret => cases hret <;> exact .inl ⟨hlt, hc⟩
  | _ => exact .inl ⟨hlt, hc⟩

theorem Told.closed_step {side : Side} {target : Text} {e e' : Endpoint} {a : EndpointAct}
    (he : Told side e) (ht : Tabled side e) (hk : Known side e) (hs : Standing e)
    (h : Steps side target e a e') (ha : ¬ e.Fails a) {c : ℕ} (hlt : c < e'.added)
    (hc : e'.closed c = true) : Announced e' c := by
  have hid := (ht.keeps h).1
  rcases h.closes hs hlt hc with ⟨hlt, hc⟩ | ⟨reply, hr, hr'⟩ | ⟨why, hp, hp'⟩
  · exact (he.closed c hlt hc).step ht h ha hlt
  · obtain ⟨hlt, hreply⟩ := hk.storing c reply hr
    cases reply with
    | none =>
      obtain ⟨why, hmem⟩ := he.storing c hr
      exact .received (hid c hlt ▸ h.received_subset hmem)
    | some f =>
      obtain rfl := hreply f rfl
      exact .sending (hid c hlt ▸ hr')
  · have hlt := ht.lt_added (c := c) (by simp [hp])
    cases hclosed : e.closed c with
    | false => exact .erasing (by rw [hp', hclosed]; rfl)
    | true =>
      -- another thread has set the flag before
      exact (he.closed c hlt hclosed).step ht h ha hlt

theorem Steps.added_le {side : Side} {target : Text} {e e' : Endpoint} {a : EndpointAct}
    (h : Steps side target e a e') : e.added ≤ e'.added := by
  cases h with
  | dialed => exact Nat.le_succ _
  | add => exact Nat.le_succ _
  | dropped _ _ hret => cases hret <;> exact Nat.le_refl _
  | transmit _ hret => cases hret <;> exact Nat.le_refl _
  | _ => exact Nat.le_refl _

/-- A stream that a client was asked to open it holds, or refuses. -/
theorem Steps.reader_opens {target : Text} {e e' : Endpoint} {a : EndpointAct}
    (h : Steps .client target e a e') {n : ℕ} {t : Text}
    (hr : e.reader = .handling (.openStream n t)) :
    e'.reader = .handling (.openStream n t) ∨ (∃ why, e'.reader = .sending (.close n why)) ∨
      ∃ c < e'.added, e'.connId c = n := by
  have hin : ∀ {r}, e.reader = r → r = .handling (.openStream n t) := fun h => h.symm.trans hr
  cases h with
  | moves _ _ hm =>
    cases hm with
    | ended hr' => cases hin hr'
    | skipped hr' _ hopen =>
      obtain rfl := ReaderPc.handling.inj (hin hr')
      exact absurd rfl (hopen rfl n t)
    | refused hr' =>
      obtain ⟨rfl, -⟩ := Frame.openStream.inj (ReaderPc.handling.inj (hin hr'))
      exact .inr (.inl ⟨_, rfl⟩)
    | asked hr' => cases hin hr'
    | removed hr' => cases hin hr'
    | registered hr' => cases hin hr'
    | unknown hr' => cases hin hr'
    | delivering hr' => cases hin hr'
    | delivered hr' => cases hin hr'
    | writeFailed hr' => cases hin hr'
    | closed hr' => cases hin hr'
    | gone hr' => cases hin hr'
    | unwound hr' => cases hin hr'
    | swept hr' => cases hin hr'
  | @dialed _ m t' _ hr' =>
    obtain ⟨rfl, -⟩ := Frame.openStream.inj (ReaderPc.handling.inj (hin hr'))
    exact .inr (.inr ⟨e.added, Nat.lt_succ_self _, e.addConn_connId_self m .receiving⟩)
  | read hr' => cases hin hr'
  | write hr' => cases hin hr'
  | erase hr' => cases hin hr'
  | store hr' => cases hin hr'
  | stop hr' => cases hin hr'
  | abort hr' => cases hin hr'
  | swap hr' => cases hin hr'
  | sweep hr' => cases hin hr'
  | dropped _ _ hret =>
    cases hret with
    | register hr' => cases hin hr'
    | reader hr' => cases hin hr'
    | _ => exact .inl hr
  | transmit _ hret =>
    cases hret with
    | register hr' => cases hin hr'
    | reader hr' => cases hin hr'
    | _ => exact .inl hr
  | _ => exact .inl hr

/-- What was received last is in hand. -/
theorem Steps.reader_of_received {side : Side} {target : Text} {e e' : Endpoint}
    {a : EndpointAct} (h : Steps side target e a e') {f : Frame}
    (hrec : e'.received = e.received ++ [f]) : e'.reader = .handling f := by
  have hne : e.received ≠ e.received ++ [f] := by simp
  cases h with
  | @read g =>
    obtain rfl : g = f := by simpa using hrec
    rfl
  | dropped _ _ hret => exact absurd (hret.frame.2.symm.trans hrec) hne
  | transmit _ hret => exact absurd (hret.frame.2.symm.trans hrec) hne
  | _ => exact absurd hrec hne

theorem Told.client_step {target : Text} {e e' : Endpoint} {a : EndpointAct}
    (he : Told .client e) (ht : Tabled .client e) (h : Steps .client target e a e')
    (ha : ¬ e.Fails a) {n : ℕ} (hn : Opens n e'.received) :
    (∃ c < e'.added, e'.connId c = n) ∨ (∃ t, e'.reader = .handling (.openStream n t)) ∨
      (∃ why, e'.reader = .sending (.close n why)) ∨ ∃ why, .close n why ∈ e'.sent := by
  have hold : Opens n e.received → (∃ c < e'.added, e'.connId c = n) ∨
      (∃ t, e'.reader = .handling (.openStream n t)) ∨
      (∃ why, e'.reader = .sending (.close n why)) ∨ ∃ why, .close n why ∈ e'.sent := by
    intro hn
    rcases he.client rfl n hn with ⟨c, hc, hid⟩ | ⟨t, hr⟩ | ⟨why, hr⟩ | ⟨why, hmem⟩
    · exact .inl ⟨c, Nat.lt_of_lt_of_le hc h.added_le, ((ht.keeps h).1 c hc).trans hid⟩
    · rcases h.reader_opens hr with hr | hr | hc
      · exact .inr (.inl ⟨t, hr⟩)
      · exact .inr (.inr (.inl hr))
      · exact .inl hc
    · rcases h.reader_sent ha hr with hr | hmem
      · exact .inr (.inr (.inl ⟨why, hr⟩))
      · exact .inr (.inr (.inr ⟨why, hmem⟩))
    · exact .inr (.inr (.inr ⟨why, h.record.1.subset hmem⟩))
  rcases h.record.2 with hrec | ⟨f, rfl, hrec⟩
  · exact hold (hrec ▸ hn)
  · rw [hrec] at hn
    rcases opens_append.1 hn with hn | hn
    · exact hold hn
    · obtain ⟨t, rfl⟩ := opens_singleton.1 hn
      exact .inr (.inl ⟨t, h.reader_of_received hrec⟩)

/-- What the forwarder is about to open, it opens, where no write fails. -/
theorem Steps.forwarder_sent {side : Side} {target : Text} {e e' : Endpoint} {a : EndpointAct}
    (h : Steps side target e a e') (ha : ¬ e.Fails a) {n c : ℕ}
    (hf : e.forwarder = .opening n c) : e'.forwarder = .opening n c ∨ Opens n e'.sent := by
  have hin : ∀ {pc}, e.forwarder = pc → pc = .opening n c := fun h => h.symm.trans hf
  cases h with
  | forwarder _ hm =>
    cases hm with
    | accepted hf' => cases hin hf'
    | fetched hf' => cases hin hf'
    | gone hf' => cases hin hf'
  | allocate _ hf' => cases hin hf'
  | add _ hf' => cases hin hf'
  | spawn _ hf' => cases hin hf'
  | forwarderErase _ hf' => cases hin hf'
  | forwarderStore _ hf' => cases hin hf'
  | dropped _ hdead => exact absurd (.inl hdead) ha
  | @transmit t g ok e'' _ hret =>
    obtain rfl : ok = true := by
      by_contra hok
      exact ha (.inr ⟨t, by simp [hok]⟩)
    cases hret with
    | forwarder hf' =>
      obtain ⟨rfl, -⟩ := ForwarderPc.opening.inj (hin hf')
      exact .inr (opens_append.2 (.inr (opens_singleton.2 ⟨target, rfl⟩)))
    | _ => exact .inl hf
  | _ => exact .inl hf

theorem Told.server_step {target : Text} {e e' : Endpoint} {a : EndpointAct}
    (he : Told .server e) (ht : Tabled .server e) (h : Steps .server target e a e')
    (ha : ¬ e.Fails a) {c : ℕ} (hc : c < e'.added) :
    Opens (e'.connId c) e'.sent ∨ ∃ n, e'.forwarder = .opening n c := by
  by_cases hold : c < e.added
  · rw [(ht.keeps h).1 c hold]
    rcases he.server rfl c hold with hopen | ⟨n, hf⟩
    · exact .inl (h.log_mono (show Opens _ (e.log .server) from hopen))
    · obtain ⟨-, rfl, -⟩ := ht.opening n c hf
      exact (h.forwarder_sent ha hf).symm.imp_right fun hf' => ⟨_, hf'⟩
  · cases h with
    | dialed hside => cases hside
    | @add _ n =>
      obtain rfl : c = e.added := Nat.le_antisymm (Nat.le_of_lt_succ hc) (Nat.le_of_not_lt hold)
      exact .inr ⟨n, rfl⟩
    | dropped _ _ hret => cases hret <;> exact absurd hc hold
    | transmit _ hret => cases hret <;> exact absurd hc hold
    | _ => exact absurd hc hold

theorem Told.step {side : Side} {target : Text} {e e' : Endpoint} {a : EndpointAct}
    (he : Told side e) (ht : Tabled side e) (hk : Known side e) (hs : Standing e)
    (h : Steps side target e a e') (ha : ¬ e.Fails a) : Told side e' := by
  have hid := (ht.keeps h).1
  refine
    { erasing := fun n hr => ?_
      storing := fun c hr => ?_
      closed := fun c hlt hc => he.closed_step ht hk hs h ha hlt hc
      client := fun hside n hn => ?_
      server := fun hside c hc => ?_ }
  · rcases h.reader_erases hr with hr | ⟨why, hr⟩
    · obtain ⟨why, hmem⟩ := he.erasing n hr
      exact ⟨why, h.received_subset hmem⟩
    · obtain ⟨before, hrec⟩ := ht.handling _ hr
      exact ⟨why, h.received_subset (by simp [hrec])⟩
  · rcases h.reader_stores hr with hr | ⟨n, hr, hl, -⟩
    · obtain ⟨why, hmem⟩ := he.storing c hr
      exact ⟨why, hid c (hk.storing c none hr).1 ▸ h.received_subset hmem⟩
    · obtain ⟨hc, rfl⟩ := ht.table n c hl
      obtain ⟨why, hmem⟩ := he.erasing _ hr
      exact ⟨why, hid c hc ▸ h.received_subset hmem⟩
  · subst hside
    exact he.client_step ht h ha hn
  · subst hside
    exact he.server_step ht h ha hc

end Endpoint

namespace Tunnel

/-! ## Both ends -/

/-- The tunnel lasts through the step. -/
def Lasting (_ : Tunnel) (a : Side × EndpointAct) : Prop := a.2.lasting = true

instance (net : Tunnel) (a : Side × EndpointAct) : Decidable (Lasting net a) :=
  inferInstanceAs (Decidable (_ = _))

/-- **The invariants of a tunnel that lasts.** -/
structure Agreeing (net : Tunnel) : Prop extends Polite net where
  accounted : ∀ side, Endpoint.Accounted (net.endpoint side)
  standing : ∀ side, Endpoint.Standing (net.endpoint side)
  dropped : ∀ side, Endpoint.Dropped (net.endpoint side)
  hearing : ∀ side, Endpoint.Hearing side (net.endpoint side)
  told : ∀ side, Endpoint.Told side (net.endpoint side)

theorem endpoint_init (side : Side) : endpoint {} side = .fresh side := by cases side <;> rfl

theorem agreeing_init : Agreeing {} where
  toPolite := polite_init
  accounted side := endpoint_init side ▸ Endpoint.accounted_fresh side
  standing side := endpoint_init side ▸ Endpoint.standing_fresh side
  dropped side := endpoint_init side ▸ Endpoint.dropped_fresh side
  hearing side := endpoint_init side ▸ Endpoint.hearing_fresh side
  told side := endpoint_init side ▸ Endpoint.told_fresh side

theorem Agreeing.step {target : Side → Text} {net net' : Tunnel} {a : Side × EndpointAct}
    (hn : Agreeing net) (ha : Lasting net a) (h : net.step target a = some net') :
    Agreeing net' := by
  obtain ⟨side, a⟩ := a
  have hpolite := hn.toPolite.step h
  obtain ⟨e, hstep, rfl, hheard, hread⟩ := hn.steps h
  have hsteps := Endpoint.steps_of_step hstep
  have ho : side = .server → (net.endpoint side).Opened := by
    rintro rfl
    exact hn.opened
  have ht := hn.tabled side
  have hk := hn.known side
  have hs := hn.standing side
  have hfails := hs.not_fails ha
  exact { hpolite with
    accounted := forall_set (P := fun _ => Endpoint.Accounted)
      ((hn.accounted side).step ht hsteps) hn.accounted
    standing := forall_set (P := fun _ => Endpoint.Standing) (hs.step hstep ha) hn.standing
    dropped := forall_set (P := fun _ => Endpoint.Dropped)
      ((hn.dropped side).step ht hk ho hsteps) hn.dropped
    hearing := forall_set ((hn.hearing side).step ht hk ho hstep hheard hread) hn.hearing
    told := forall_set ((hn.told side).step ht hk hs hsteps hfails) hn.told }

theorem agreeing_of_exec {target : Side → Text} {as : List (Side × EndpointAct)} {net : Tunnel}
    (hlast : Along (step target) Lasting {} as) (h : exec (step target) {} as = some net) :
    Agreeing net :=
  exec_invariant_along (fun _ _ _ hI ha hs => hI.step ha hs) agreeing_init hlast h

end Tunnel

namespace Endpoint

/-- **The end is at rest**: its read loop waits for a frame, its forwarder
for a connection, and its pumps for bytes. -/
structure AtRest (e : Endpoint) : Prop where
  reader : e.reader = .reading
  forwarder : e.forwarder = .accepting
  keepalive : e.keepalive ≠ .sending
  pump : ∀ c < e.added, e.pump c = .unborn ∨ e.pump c = .receiving ∨ e.pump c = .done

instance (e : Endpoint) : Decidable e.AtRest :=
  decidable_of_iff (e.reader = .reading ∧ e.forwarder = .accepting ∧ e.keepalive ≠ .sending ∧
      ∀ c < e.added, e.pump c = .unborn ∨ e.pump c = .receiving ∨ e.pump c = .done)
    ⟨fun ⟨hr, hf, hk, hp⟩ => ⟨hr, hf, hk, hp⟩, fun ⟨hr, hf, hk, hp⟩ => ⟨hr, hf, hk, hp⟩⟩

/-- A connection that an end at rest does not hold is closed. -/
theorem AtRest.closed {e : Endpoint} (hr : AtRest e) (ha : Accounted e) {c : ℕ} (hc : c < e.added)
    (hl : e.conns.lookup (e.connId c) = none) : e.closed c = true := by
  cases ha.owned c hc with
  | closed h => exact h
  | tabled h => exact absurd (hl.symm.trans h) (by simp)
  | storing h => exact absurd (hr.reader.symm.trans h) (by simp)
  | taken h => exact absurd (hr.reader.symm.trans h) (by simp)
  | forwarder h => exact absurd (hr.forwarder.symm.trans h) (by simp)

/-- What an end at rest does not hold of the streams that were open, it has
announced or was told. -/
theorem AtRest.announced {side : Side} {e : Endpoint} (hr : AtRest e) (ht : Tabled side e)
    (ho : side = .server → Opened e) (ha : Accounted e) (hs : Told side e) {n : ℕ}
    (hn : Opens n (e.log side)) (hl : e.conns.lookup n = none) :
    (∃ why, .close n why ∈ e.sent) ∨ ∃ why, .close n why ∈ e.received := by
  have hconn : ∀ c < e.added, e.connId c = n →
      (∃ why, .close n why ∈ e.sent) ∨ ∃ why, .close n why ∈ e.received := by
    rintro c hc rfl
    cases hs.closed c hc (hr.closed ha hc hl) with
    | sent hmem => exact .inl ⟨_, hmem⟩
    | received hmem => exact .inr ⟨_, hmem⟩
    | sending h => exact absurd (hr.reader.symm.trans h) (by simp)
    | erasing h =>
      rcases hr.pump c hc with hp | hp | hp <;> exact absurd (hp.symm.trans h) (by simp)
    | closing h =>
      rcases hr.pump c hc with hp | hp | hp <;> exact absurd (hp.symm.trans h) (by simp)
  cases side with
  | server =>
    obtain ⟨c, hc, hid⟩ := (ho rfl).added n hn
    exact hconn c hc hid
  | client =>
    rcases hs.client rfl n hn with ⟨c, hc, hid⟩ | ⟨t, h⟩ | ⟨why, h⟩ | hmem
    · exact hconn c hc hid
    · exact absurd (hr.reader.symm.trans h) (by simp)
    · exact absurd (hr.reader.symm.trans h) (by simp)
    · exact .inl hmem

/-- A stream that an end at rest holds was opened, and neither end of it has
announced its end. -/
theorem AtRest.open {side : Side} {e : Endpoint} (hr : AtRest e) (ht : Tabled side e)
    (hd : Dropped e) (hh : Hearing side e) (hs : Told side e) {n c : ℕ}
    (hl : e.conns.lookup n = some c) :
    Opens n (e.log side) ∧ (∀ why, .close n why ∉ e.sent) ∧ ∀ why, .close n why ∉ e.received := by
  obtain ⟨hc, rfl⟩ := ht.table n c hl
  refine ⟨?_, fun why hmem => ?_, fun why hmem => ?_⟩
  · cases side with
    | server =>
      rcases hs.server rfl c hc with hopen | ⟨n, h⟩
      · exact hopen
      · exact absurd (hr.forwarder.symm.trans h) (by simp)
    | client => exact (ht.client rfl).2.1 c hc
  · exact absurd (hl.symm.trans (hd.sent _ why hmem)) (by simp)
  · rcases hh.dropping _ why hmem with h | ⟨why', h⟩ | h
    · exact absurd (hl.symm.trans h) (by simp)
    · exact absurd (hr.reader.symm.trans h) (by simp)
    · exact absurd (hr.reader.symm.trans h) (by simp)

/-- Of a stream that an end at rest holds, all that was received is written,
and all that was read is sent. -/
theorem AtRest.settled {side : Side} {e : Endpoint} (hr : AtRest e) (ht : Tabled side e)
    (hp : Pumped e) (hw : Written side e) (hd : Dropped e) {n c : ℕ}
    (hl : e.conns.lookup n = some c) :
    e.written n = payloads n e.received ∧ payloads n e.sent = e.read n := by
  obtain ⟨hc, rfl⟩ := ht.table n c hl
  refine ⟨?_, ?_⟩
  · simpa [hr.reader, ReaderPc.pending] using hw.held _ c hl (by simp [hr.reader])
  · have hok := hp.pump c hc
    rcases hr.pump c hc with h | h | h
    · rw [h] at hok
      exact hok.1.trans hok.2.symm
    · rw [h] at hok
      exact hok
    · exact absurd (hl.symm.trans (hd.pump c (by rw [h]; rfl))) (by simp)

end Endpoint

namespace Tunnel

/-- **The tunnel is at rest**: both ends are, and nothing is under way. -/
structure AtRest (net : Tunnel) : Prop where
  ends : ∀ side, (net.endpoint side).AtRest
  underWay : ∀ side, net.underWay side = []

instance (net : Tunnel) : Decidable net.AtRest :=
  decidable_of_iff (net.server.AtRest ∧ net.client.AtRest ∧ net.underWay .server = [] ∧
      net.underWay .client = [])
    ⟨fun ⟨hs, hc, hus, huc⟩ => ⟨fun side => by cases side <;> assumption,
        fun side => by cases side <;> assumption⟩,
      fun h => ⟨h.ends .server, h.ends .client, h.underWay .server, h.underWay .client⟩⟩

/-- Where nothing is under way, what was received is what was sent. -/
theorem AtRest.received {net : Tunnel} (hr : AtRest net) (hn : Sound net) (side : Side) :
    (net.endpoint side).received = (net.endpoint side.other).sent := by
  obtain ⟨rest, hrest⟩ := hn.fifo side
  have hnil : rest = [] := by simpa [Tunnel.underWay, ← hrest] using hr.underWay side
  rw [← hrest, hnil, List.append_nil]

/-- A stream that one end at rest does not hold, the other does not hold. -/
theorem Agreeing.lookup_eq_none {net : Tunnel} (hn : Agreeing net) (hr : AtRest net) {side : Side}
    {n : ℕ} (hl : (net.endpoint side).conns.lookup n = none) :
    (net.endpoint side.other).conns.lookup n = none := by
  rw [Option.eq_none_iff_forall_ne_some]
  intro c hc
  obtain ⟨hopen, hsent, hreceived⟩ := (hr.ends side.other).open (hn.tabled _) (hn.dropped _)
    (hn.hearing _) (hn.told _) hc
  have hback := hr.received hn.toSound side.other
  rw [Side.other_other] at hback
  have hlog : Opens n ((net.endpoint side).log side) := by
    cases side with
    | server =>
      have hopen : Opens n net.client.received := hopen
      have hforth : net.client.received = net.server.sent := hback
      show Opens n net.server.sent
      exact hforth ▸ hopen
    | client =>
      have hopen : Opens n net.server.sent := hopen
      have hforth : net.client.received = net.server.sent := hr.received hn.toSound .client
      show Opens n net.client.received
      exact hforth ▸ hopen
  have ho : side = .server → (net.endpoint side).Opened := by
    rintro rfl
    exact hn.opened
  rcases (hr.ends side).announced (hn.tabled _) ho (hn.accounted _) (hn.told _) hlog hl with
    ⟨why, hmem⟩ | ⟨why, hmem⟩
  · exact hreceived why (hback ▸ hmem)
  · exact hsent why (hr.received hn.toSound side ▸ hmem)

/-- **At rest both ends agree.** In a run that the tunnel lasts through, in
every state at rest a stream is held by both ends, with all the bytes that
were read at either written at the other, or by neither, with every
connection of it closed. -/
theorem agreed_at_rest {target : Side → Text} {as : List (Side × EndpointAct)} {net : Tunnel}
    (hlast : Along (step target) Lasting {} as) (h : exec (step target) {} as = some net)
    (hr : AtRest net) (n : ℕ) :
    (∀ side, (∃ c, (net.endpoint side).conns.lookup n = some c) ∧
      (net.endpoint side).written n = (net.endpoint side.other).read n) ∨
    ∀ side, (net.endpoint side).conns.lookup n = none ∧
      ∀ c < (net.endpoint side).added, (net.endpoint side).connId c = n →
        (net.endpoint side).closed c = true := by
  have hn := agreeing_of_exec hlast h
  by_cases hheld : ∃ side, (net.endpoint side).conns.lookup n = none
  · obtain ⟨side, hl⟩ := hheld
    refine .inr fun s => ?_
    have hnone : (net.endpoint s).conns.lookup n = none := by
      rcases Side.eq_or_eq_other side s with rfl | rfl
      · exact hl
      · exact hn.lookup_eq_none hr hl
    refine ⟨hnone, ?_⟩
    rintro c hc rfl
    exact (hr.ends s).closed (hn.accounted s) hc hnone
  · push Not at hheld
    refine .inl fun side => ?_
    have hsome : ∀ s, ∃ c, (net.endpoint s).conns.lookup n = some c := fun s =>
      Option.ne_none_iff_exists'.1 (hheld s)
    refine ⟨hsome side, ?_⟩
    obtain ⟨c, hc⟩ := hsome side
    obtain ⟨c', hc'⟩ := hsome side.other
    have hw := (hr.ends side).settled (hn.tabled _) (hn.pumped _) (hn.written _) (hn.dropped _) hc
    have hs := (hr.ends side.other).settled (hn.tabled _) (hn.pumped _) (hn.written _)
      (hn.dropped _) hc'
    calc (net.endpoint side).written n
        = payloads n (net.endpoint side).received := hw.1
      _ = payloads n (net.endpoint side.other).sent := by rw [hr.received hn.toSound side]
      _ = (net.endpoint side.other).read n := hs.2

/-- A stream is opened, carries two bytes to the client and one back, and
stays open; another comes that the client cannot dial. -/
def echoedStream : List (Side × EndpointAct) :=
  helloStream.take 21 ++
    [(.client, .read (some (.data 1 [104, 105]))), (.client, .reader false), (.client, .write 2),
      (.client, .reader false), (.client, .recv 0 [33]), (.client, .lock (.pump 0)),
      (.client, .transmit (.pump 0) true), (.server, .read (some (.data 1 [33]))),
      (.server, .reader false), (.server, .write 1), (.server, .reader false),
      (.server, .forwarder), (.server, .forwarder), (.server, .forwarder), (.server, .forwarder),
      (.server, .lock .forwarder), (.server, .transmit .forwarder true), (.server, .forwarder),
      (.client, .read (some (.openStream 2 "edge-1".toList))), (.client, .reader false),
      (.client, .lock .reader), (.client, .transmit .reader true),
      (.server, .read (some (.close 2 .dialFailed))), (.server, .reader false),
      (.server, .reader false), (.server, .reader false), (.server, .recvEnd 1 false),
      (.server, .pump 1), (.server, .pump 1)]

theorem agreed_at_rest_echoedStream :
    Along (step fun _ => "edge-1".toList) Lasting {} echoedStream ∧
      ∃ net, exec (step fun _ => "edge-1".toList) {} echoedStream = some net ∧ net.AtRest ∧
        net.server.added = 2 ∧ net.client.conns.lookup 1 = some 0 ∧
        net.client.written 1 = [104, 105] ∧ net.server.written 1 = [33] ∧
        net.client.written 1 = net.server.read 1 ∧ net.server.written 1 = net.client.read 1 ∧
        net.server.conns.lookup 2 = none := by
  have hlast : Along (step fun _ => "edge-1".toList) Lasting {} echoedStream := by
    decide +kernel
  have hrun : (exec (step fun _ => "edge-1".toList) {} echoedStream).any (fun net =>
      decide (net.AtRest ∧ net.server.added = 2 ∧ net.client.conns.lookup 1 = some 0 ∧
        net.client.conns.lookup 2 = none ∧ net.client.written 1 = [104, 105] ∧
        net.server.written 1 = [33])) = true := by
    decide +kernel
  obtain ⟨net, hnet, hfacts⟩ := (Option.any_eq_true _ _).1 hrun
  obtain ⟨hrest, hadded, hheld, hnone, hto, hback⟩ := of_decide_eq_true hfacts
  obtain ⟨hclient, hserver⟩ : net.client.written 1 = net.server.read 1 ∧
      net.server.written 1 = net.client.read 1 := by
    rcases agreed_at_rest hlast hnet hrest 1 with h | h
    · exact ⟨(h .client).2, (h .server).2⟩
    · exact absurd (hheld.symm.trans (h .client).1) (by simp)
  have hother : net.server.conns.lookup 2 = none := by
    rcases agreed_at_rest hlast hnet hrest 2 with h | h
    · obtain ⟨c, hc⟩ := (h .client).1
      exact absurd (hnone.symm.trans hc) (by simp)
    · exact (h .server).1
  exact ⟨hlast, net, hnet, hrest, hadded, hheld, hto, hback, hclient, hserver, hother⟩

end Tunnel

end ZeroTouch
