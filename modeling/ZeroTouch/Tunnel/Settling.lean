import Mathlib.Algebra.BigOperators.Group.Finset.Basic
import ZeroTouch.Tunnel.Agreement
/-!
# Every tunnel settles

A tunnel that is left alone comes to rest. No thread waits for another but
in `Send`, and who holds `write_mu_` is writing; so until the tunnel is at
rest some thread can go on. Every frame asks for a bounded amount of work,
its answer and the handling of the answer included, so they cannot go on
for ever (`settles`). With `agreed_at_rest`, both ends agree at last.
-/

namespace ZeroTouch

/-! ## The work that is left -/

/-- The steps that a frame under way asks for at most: that it is read and
handled, and that its answer is sent, read and handled. -/
def Frame.weight : Frame → ℕ
  | .keepalive => 2
  | .registerAck _ => 2
  | .close _ _ => 4
  | .openStream _ _ => 8
  | .register _ => 8
  | .data _ bytes => bytes.length + 11

theorem Frame.weight_pos (f : Frame) : 2 ≤ f.weight := by
  cases f <;> simp only [weight] <;> omega

/-- What is left of sending a frame. -/
def sendWeight : Option Frame → ℕ
  | none => 0
  | some f => f.weight + 2

/-- The work that frames under way ask for. -/
def weigh : List Frame → ℕ
  | [] => 0
  | f :: fs => f.weight + weigh fs

@[simp] theorem weigh_nil : weigh [] = 0 := rfl

@[simp] theorem weigh_singleton (f : Frame) : weigh [f] = f.weight := rfl

@[simp] theorem weigh_append (fs gs : List Frame) : weigh (fs ++ gs) = weigh fs + weigh gs := by
  induction fs with
  | nil => simp
  | cons f fs ih => simp [weigh, ih, Nat.add_assoc]

/-- What is left for a read loop that has not come to its end. -/
def ReaderPc.weight : ReaderPc → ℕ
  | .registering => 10
  | .handling f => f.weight - 1
  | .removing _ => 6
  | .adding _ => 5
  | .writing _ _ rest => rest.length + 9
  | .erasing _ reply => sendWeight reply + 2
  | .storing _ reply => sendWeight reply + 1
  | .sending f => f.weight + 2
  | _ => 0

/-- What is left for a forwarder that has a connection to open. -/
def ForwarderPc.weight : ForwarderPc → ℕ
  | .fetching => 14
  | .allocating => 13
  | .adding _ => 12
  | .opening _ _ => 11
  | .spawning _ => 1
  | _ => 0

/-- What is left for a pump that has received bytes, or come to its end. -/
def PumpPc.weight : PumpPc → ℕ
  | .sending bytes => bytes.length + 13
  | .exchanging _ => 8
  | .erasing _ _ => 7
  | .closing _ => 6
  | _ => 0

def KeepalivePc.weight : KeepalivePc → ℕ
  | .sending => 4
  | _ => 0

namespace Endpoint

/-- What is left for the pumps, by the weight of each. -/
def pumpSum (w : PumpPc → ℕ) (e : Endpoint) : ℕ := ∑ c ∈ Finset.range e.added, w (e.pump c)

/-- `write_mu_` can be taken. -/
def unlocked (e : Endpoint) : ℕ := if e.writer = none then 1 else 0

/-- What is left for the threads of an end. -/
def weight (e : Endpoint) : ℕ :=
  e.reader.weight + e.forwarder.weight + e.keepalive.weight + e.pumpSum PumpPc.weight + e.unlocked

/-- A new connection whose pump has nothing to do. -/
theorem pumpSum_addConn {w : PumpPc → ℕ} (e : Endpoint) (n : ℕ) {p : PumpPc} (hp : w p = 0) :
    pumpSum w (e.addConn n p) = pumpSum w e := by
  show ∑ c ∈ Finset.range (e.added + 1), w (Function.update e.pump e.added p c) = pumpSum w e
  rw [Finset.sum_range_succ, Function.update_self, hp, Nat.add_zero]
  refine Finset.sum_congr rfl fun c hc => ?_
  rw [Function.update_of_ne (Nat.ne_of_lt (Finset.mem_range.1 hc))]

/-- A pump goes on. -/
theorem pumpSum_update (w : PumpPc → ℕ) {e : Endpoint} {c : ℕ} {q : PumpPc} (hc : c < e.added)
    (hq : e.pump c = q) (p : PumpPc) :
    pumpSum w { e with pump := Function.update e.pump c p } + w q = pumpSum w e + w p := by
  have hmem : c ∈ Finset.range e.added := Finset.mem_range.2 hc
  have hrest : ∑ d ∈ (Finset.range e.added).erase c, w (Function.update e.pump c p d) =
      ∑ d ∈ (Finset.range e.added).erase c, w (e.pump d) := by
    refine Finset.sum_congr rfl fun d hd => ?_
    rw [Function.update_of_ne (Finset.ne_of_mem_erase hd)]
  have hnew := Finset.add_sum_erase _ (fun d => w (Function.update e.pump c p d)) hmem
  have hold := Finset.add_sum_erase _ (fun d => w (e.pump d)) hmem
  simp only [Function.update_self, hrest] at hnew
  simp only [hq] at hold
  show ∑ d ∈ Finset.range e.added, w (Function.update e.pump c p d) + w q =
    ∑ d ∈ Finset.range e.added, w (e.pump d) + w p
  omega

end Endpoint

/-- The step is one that an end takes by itself, with what it has in hand:
no new bytes, no new connection, no keepalive, and no write that fails. -/
def Endpoint.Internal (e : Endpoint) : EndpointAct → Prop
  | .read f => f ≠ none
  | .transmit _ ok => ok = true
  | .forwarder => e.forwarder ≠ .accepting
  | .reader _ | .write _ | .writeFailed | .pump _ | .lock _ => True
  | .recv .. | .recvEnd .. | .beat | .otherAdd .. | .otherRemove .. => False

theorem Endpoint.Internal.lasting {e : Endpoint} {a : EndpointAct} (h : e.Internal a) :
    a.lasting = true := by
  cases a with
  | read f =>
    cases f with
    | none => exact absurd rfl h
    | some f => rfl
  | transmit t ok => exact h
  | _ => rfl

namespace Endpoint

/-! ## Every step is work done -/

/-- **Work was done** between two states of an end: what was read outweighs
what was sent and what is left. -/
def Worked (e e' : Endpoint) : Prop :=
  ∃ ins outs, e'.received = e.received ++ ins ∧ e'.sent = e.sent ++ outs ∧
    e'.weight + weigh outs < e.weight + weigh ins

/-- A thread goes on by itself. -/
theorem Worked.of_lt {e e' : Endpoint} (hrec : e'.received = e.received) (hsent : e'.sent = e.sent)
    (hlt : e'.weight < e.weight) : Worked e e' :=
  ⟨[], [], by simp [hrec], by simp [hsent], by simpa using hlt⟩

/-- The read loop goes on by itself. -/
theorem Worked.setReader {e e' : Endpoint} (hrec : e'.received = e.received)
    (hsent : e'.sent = e.sent) (hr : e'.reader.weight < e.reader.weight)
    (hf : e'.forwarder = e.forwarder) (hk : e'.keepalive = e.keepalive)
    (hp : e'.pumpSum PumpPc.weight = e.pumpSum PumpPc.weight) (hw : e'.writer = e.writer) : Worked e e' := by
  refine .of_lt hrec hsent ?_
  simp only [weight, unlocked, hf, hk, hp, hw]
  omega

theorem sendWeight_afterClose (reply : Option Frame) :
    (afterClose reply).weight = sendWeight reply := by
  cases reply <;> rfl

theorem weight_handle (side : Side) (target : Text) {e : Endpoint} (dialed : Bool) {f : Frame}
    (hr : e.reader = .handling f) : Worked e (e.handle side target dialed f) := by
  have hw : e.reader.weight = f.weight - 1 := by rw [hr]; rfl
  have hgo : ∀ r : ReaderPc, r.weight < f.weight - 1 → Worked e { e with reader := r } :=
    fun r hlt => .setReader rfl rfl (hw ▸ hlt) rfl rfl rfl rfl
  cases f with
  | register t =>
    cases side with
    | server =>
      refine hgo _ ?_
      split <;> simp [ReaderPc.weight, Frame.weight]
    | client => exact hgo .reading (by simp [ReaderPc.weight, Frame.weight])
  | registerAck t => exact hgo .reading (by simp [ReaderPc.weight, Frame.weight])
  | openStream n t =>
    cases side with
    | server => exact hgo .reading (by simp [ReaderPc.weight, Frame.weight])
    | client =>
      simp only [handle]
      split
      · exact hgo _ (by simp [ReaderPc.weight, Frame.weight])
      · split
        · refine .setReader rfl rfl ?_ rfl rfl (e.pumpSum_addConn n rfl) rfl
          rw [hw]
          simp [ReaderPc.weight, Frame.weight]
        · exact hgo _ (by simp [ReaderPc.weight, Frame.weight])
  | data n bytes =>
    simp only [handle]
    split
    · exact hgo _ (by simp [ReaderPc.weight, Frame.weight])
    · exact hgo _ (by simp [ReaderPc.weight, Frame.weight])
  | close n why => exact hgo _ (by simp [ReaderPc.weight, Frame.weight, sendWeight])
  | keepalive => exact hgo .reading (by simp [ReaderPc.weight, Frame.weight])

theorem weight_readerStep {side : Side} {target : Text} {e e' : Endpoint} {dialed : Bool}
    (hs : Standing e) (h : e.readerStep side target dialed = some e') : Worked e e' := by
  simp only [readerStep] at h
  split at h
  case h_1 f hr => exact Option.some.inj h ▸ weight_handle side target dialed hr
  case h_2 t hr =>
    refine Option.some.inj h ▸ .setReader rfl rfl ?_ rfl rfl rfl rfl
    simp [hr, ReaderPc.weight]
  case h_3 t hr =>
    refine Option.some.inj h ▸ .setReader rfl rfl ?_ rfl rfl rfl rfl
    simp [hr, ReaderPc.weight, Frame.weight]
  case h_4 n c hr =>
    refine Option.some.inj h ▸ .setReader rfl rfl ?_ rfl rfl rfl rfl
    simp [hr, ReaderPc.weight]
  case h_5 n reply hr =>
    split at h
    case h_1 =>
      refine Option.some.inj h ▸ .setReader rfl rfl ?_ rfl rfl rfl rfl
      rw [hr]
      simp only [sendWeight_afterClose]
      simp only [ReaderPc.weight]
      omega
    case h_2 =>
      refine Option.some.inj h ▸ .setReader rfl rfl ?_ rfl rfl rfl rfl
      simp [hr, ReaderPc.weight]
  case h_6 c reply hr =>
    refine Option.some.inj h ▸ .setReader rfl rfl ?_ rfl rfl rfl rfl
    rw [hr]
    simp only [sendWeight_afterClose]
    simp only [ReaderPc.weight]
    omega
  case h_7 hr => exact absurd hr (looping_ne hs rfl)
  case h_8 hr => exact absurd hr (looping_ne hs rfl)
  case h_9 hr => exact absurd hr (looping_ne hs rfl)
  case h_10 hr => exact absurd hr (looping_ne hs rfl)
  case h_11 hr => exact absurd hr (looping_ne hs rfl)
  case h_12 hr => exact absurd hr (looping_ne hs rfl)
  case h_13 => cases h

/-- The forwarder goes on by itself. -/
theorem Worked.setForwarder {e e' : Endpoint} (hrec : e'.received = e.received)
    (hsent : e'.sent = e.sent) (hf : e'.forwarder.weight < e.forwarder.weight)
    (hr : e'.reader = e.reader) (hk : e'.keepalive = e.keepalive)
    (hp : e'.pumpSum PumpPc.weight = e.pumpSum PumpPc.weight) (hw : e'.writer = e.writer) : Worked e e' := by
  refine .of_lt hrec hsent ?_
  simp only [weight, unlocked, hr, hk, hp, hw]
  omega

theorem weight_forwarderStep {side : Side} {target : Text} {e e' : Endpoint} (hs : Standing e)
    (ht : Tabled side e) (hi : e.forwarder ≠ .accepting)
    (h : e.forwarderStep side target = some e') : Worked e e' := by
  simp only [forwarderStep] at h
  split at h
  case h_1 hf => exact absurd hf hi
  case h_2 hf =>
    refine Option.some.inj h ▸ .setForwarder rfl rfl ?_ rfl rfl rfl rfl
    rw [hf]
    simp only
    split <;> simp [ForwarderPc.weight]
  case h_3 hf =>
    refine Option.some.inj h ▸ .setForwarder rfl rfl ?_ rfl rfl rfl rfl
    simp [hf, ForwarderPc.weight]
  case h_4 n hf =>
    refine Option.some.inj h ▸ .setForwarder rfl rfl ?_ rfl rfl (e.pumpSum_addConn n rfl) rfl
    simp [hf, ForwarderPc.weight]
  case h_5 c hf =>
    obtain ⟨hc, hp⟩ := ht.spawning c hf
    have hpumps := pumpSum_update PumpPc.weight hc hp .receiving
    refine Option.some.inj h ▸ .setForwarder rfl rfl ?_ rfl rfl hpumps rfl
    simp [hf, ForwarderPc.weight]
  case h_6 n hf => exact absurd hf (hs.erasing n)
  case h_7 c hf => exact absurd hf (hs.storing c)
  case h_8 => cases h

/-- A pump goes on by itself. -/
theorem Worked.setPump {e e' : Endpoint} {c : ℕ} {p : PumpPc} (hc : c < e.added)
    (hrec : e'.received = e.received) (hsent : e'.sent = e.sent)
    (hp : p.weight < (e.pump c).weight) (hr : e'.reader = e.reader)
    (hf : e'.forwarder = e.forwarder) (hk : e'.keepalive = e.keepalive)
    (hadded : e'.added = e.added) (hpump : e'.pump = Function.update e.pump c p)
    (hw : e'.writer = e.writer) : Worked e e' := by
  have hpumps : e'.pumpSum PumpPc.weight + (e.pump c).weight =
      e.pumpSum PumpPc.weight + p.weight := by
    rw [← pumpSum_update PumpPc.weight hc rfl p, pumpSum, pumpSum, hadded, hpump]
  refine .of_lt hrec hsent ?_
  simp only [weight, unlocked, hr, hf, hk, hw]
  omega

theorem weight_pumpStep {side : Side} {e e' : Endpoint} {c : ℕ} (ht : Tabled side e)
    (h : e.pumpStep c = some e') : Worked e e' := by
  simp only [pumpStep] at h
  split at h
  case h_1 why hp =>
    have hc := ht.lt_added (c := c) (by simp [hp])
    refine Option.some.inj h ▸ .setPump hc rfl rfl ?_ rfl rfl rfl rfl rfl rfl
    simp [hp, PumpPc.weight]
  case h_2 ours why hp =>
    have hc := ht.lt_added (c := c) (by simp [hp])
    refine Option.some.inj h ▸ .setPump hc rfl rfl ?_ rfl rfl rfl rfl rfl rfl
    rw [hp]
    cases ours <;> simp [PumpPc.weight]
  case h_3 => cases h

/-- A thread is back from `Send`: what it sent weighs less than what it has
done. -/
theorem weight_returns {side : Side} {target : Text} {e e' : Endpoint} {f : Frame} {t : Thread}
    (ht : Tabled side e) (h : Returns target e true f t e') :
    e'.reader.weight + e'.forwarder.weight + e'.keepalive.weight + e'.pumpSum PumpPc.weight +
        f.weight + 2 ≤
      e.reader.weight + e.forwarder.weight + e.keepalive.weight + e.pumpSum PumpPc.weight := by
  cases h with
  | register hr =>
    simp only [hr, ReaderPc.weight, Frame.weight, KeepalivePc.weight, pumpSum, if_true]
    omega
  | reader hr =>
    simp only [hr, ReaderPc.weight, pumpSum]
    omega
  | forwarder hf =>
    simp only [hf, ForwarderPc.weight, Frame.weight, pumpSum, if_true]
    omega
  | keepalive hk =>
    simp only [hk, KeepalivePc.weight, Frame.weight, pumpSum, if_true]
    omega
  | @data c bytes hp =>
    have hpumps : _ + (bytes.length + 13) = e.pumpSum PumpPc.weight + 0 :=
      pumpSum_update PumpPc.weight (ht.lt_added (c := c) (by simp [hp])) hp .receiving
    simp only [if_true, Frame.weight]
    omega
  | @close c why hp =>
    have hpumps : _ + 6 = e.pumpSum PumpPc.weight + 0 :=
      pumpSum_update PumpPc.weight (ht.lt_added (c := c) (by simp [hp])) hp .done
    simp only [Frame.weight]
    omega

theorem weight_transmit {side : Side} {target : Text} {e e' : Endpoint} {f : Frame} {t : Thread}
    (ht : Tabled side e) (hw : e.writer = some t) (h : Returns target e true f t e')
    (late : List Frame) :
    Worked e { e' with writer := none, sent := e.sent ++ [f], late := late } := by
  have hle := weight_returns ht h
  refine ⟨[], [f], by simp [h.frame.2], rfl, ?_⟩
  have hpumps : pumpSum PumpPc.weight
      { e' with writer := none, sent := e.sent ++ [f], late := late } =
        e'.pumpSum PumpPc.weight := rfl
  simp only [weight, hpumps, unlocked, hw, weigh_nil, weigh_singleton, if_true]
  simp
  omega

/-- **Every internal step is work done.** -/
theorem worked_of_step {side : Side} {target : Text} {e e' : Endpoint} {a : EndpointAct}
    (hs : Standing e) (ht : Tabled side e) (h : e.step side target a = some e')
    (hi : e.Internal a) : Worked e e' := by
  cases a with
  | read f =>
    cases f with
    | none => exact absurd rfl hi
    | some f =>
      obtain ⟨hr, rfl⟩ := reader_of_read h
      have hpos := f.weight_pos
      have hlt : (f.weight - 1) < e.reader.weight + f.weight := by
        rw [hr]
        simp only [ReaderPc.weight]
        omega
      refine ⟨[f], [], rfl, by simp, ?_⟩
      simp only [weight, ReaderPc.weight, weigh_singleton, weigh_nil, pumpSum, unlocked]
      omega
  | reader dialed => exact weight_readerStep hs h
  | write k =>
    simp only [step] at h
    split at h
    case h_1 n c rest hr =>
      split at h
      case isTrue hk =>
        refine Option.some.inj h ▸ .setReader rfl rfl ?_ rfl rfl rfl rfl
        simp only [hr, ReaderPc.weight, List.length_drop]
        omega
      case isFalse => cases h
    case h_2 => cases h
  | writeFailed =>
    simp only [step] at h
    split at h
    case h_1 n c b rest hr =>
      refine Option.some.inj h ▸ .setReader rfl rfl ?_ rfl rfl rfl rfl
      simp only [hr, ReaderPc.weight, sendWeight, Frame.weight, List.length_cons]
      omega
    case h_2 => cases h
  | forwarder => exact weight_forwarderStep hs ht hi h
  | pump c => exact weight_pumpStep ht h
  | lock t =>
    simp only [step, hs.alive] at h
    split at h
    case h_1 f hw _ =>
      refine Option.some.inj h ▸ .of_lt rfl rfl ?_
      simp [weight, pumpSum, unlocked, hw]
    case h_2 => cases h
  | transmit t ok =>
    obtain rfl : ok = true := hi
    simp only [step] at h
    split at h
    case h_1 f hsend =>
      split at h
      case isTrue hw =>
        exact Option.some.inj h ▸ weight_transmit ht hw (returns_of_sending hsend true) _
      case isFalse => cases h
    case h_2 => cases h
  | recv => exact hi.elim
  | recvEnd => exact hi.elim
  | beat => exact hi.elim
  | otherAdd => exact hi.elim
  | otherRemove => exact hi.elim

/-! ## Some thread can go on -/

/-- **Who holds `write_mu_` is writing.** -/
def InSend (target : Text) (e : Endpoint) : Prop :=
  ∀ t, e.writer = some t → e.sending target t ≠ none

theorem inSend_fresh (side : Side) (target : Text) : InSend target (fresh side) := by
  cases side <;> simp [InSend, fresh]

/-- A step of another thread leaves who is writing in `Send`. -/
theorem InSend.keep {target : Text} {e e' : Endpoint} (he : InSend target e)
    (hw : e'.writer = e.writer)
    (hr : e'.reader = e.reader ∨ e.sending target .reader = none)
    (hf : e'.forwarder = e.forwarder ∨ e.sending target .forwarder = none)
    (hk : e'.keepalive = e.keepalive ∨ e.sending target .keepalive = none)
    (hp : ∀ c, e'.pump c = e.pump c ∨ e.sending target (.pump c) = none) : InSend target e' := by
  intro t ht
  have hsend := he t (hw.symm.trans ht)
  cases t with
  | reader =>
    rcases hr with hr | hr
    · simpa only [sending, hr] using hsend
    · exact absurd hr hsend
  | forwarder =>
    rcases hf with hf | hf
    · simpa only [sending, hf] using hsend
    · exact absurd hf hsend
  | keepalive =>
    rcases hk with hk | hk
    · simpa only [sending, hk] using hsend
    · exact absurd hk hsend
  | pump c =>
    rcases hp c with hp | hp
    · simp only [sending, hp] at hsend ⊢
      cases h : e.pump c <;> simp [h] at hsend ⊢
    · exact absurd hp hsend

/-- A step of the read loop outside `Send`. -/
theorem InSend.setReader {target : Text} {e e' : Endpoint} (he : InSend target e)
    (hr : e.sending target .reader = none) (hw : e'.writer = e.writer)
    (hf : e'.forwarder = e.forwarder) (hk : e'.keepalive = e.keepalive) (hp : e'.pump = e.pump) :
    InSend target e' :=
  he.keep hw (.inr hr) (.inl hf) (.inl hk) fun c => .inl (congrFun hp c)

/-- A step of the forwarder outside `Send`. -/
theorem InSend.setForwarder {target : Text} {e e' : Endpoint} (he : InSend target e)
    (hf : e.sending target .forwarder = none) (hw : e'.writer = e.writer)
    (hr : e'.reader = e.reader) (hk : e'.keepalive = e.keepalive) (hp : e'.pump = e.pump) :
    InSend target e' :=
  he.keep hw (.inl hr) (.inr hf) (.inl hk) fun c => .inl (congrFun hp c)

/-- A pump that is not in `Send` goes on. -/
theorem pump_update_or {target : Text} {e : Endpoint} {c : ℕ} (p : PumpPc)
    (h : e.sending target (.pump c) = none) (d : ℕ) :
    Function.update e.pump c p d = e.pump d ∨ e.sending target (.pump d) = none := by
  by_cases hd : d = c
  · subst hd
    exact .inr h
  · exact .inl (Function.update_of_ne hd ..)

theorem ReaderMoves.not_sending {side : Side} {target : Text} {e : Endpoint} {r : ReaderPc}
    (h : ReaderMoves side e r) : e.sending target .reader = none := by
  cases h <;> simp [sending, *]

/-- A thread that is writing goes on when its write returns. -/
theorem InSend.step {side : Side} {target : Text} {e e' : Endpoint} {a : EndpointAct}
    (he : InSend target e) (ht : Tabled side e) (hs : Standing e)
    (h : e.step side target a = some e') : InSend target e' := by
  have hlock : ∀ t, a = .lock t → e.sending target t ≠ none := by
    rintro t rfl
    simp only [Endpoint.step] at h
    split at h
    case h_1 f _ hsend => simp [hsend]
    case h_2 => cases h
  have hunborn : e.sending target (.pump e.added) = none := by
    simp [sending, ht.unborn e.added (Nat.le_refl _)]
  cases steps_of_step h with
  | read hr => exact he.setReader (by simp [sending, hr]) rfl rfl rfl rfl
  | moves _ _ hm => exact he.setReader hm.not_sending rfl rfl rfl rfl
  | dialed _ hr =>
    exact he.keep rfl (.inr (by simp [sending, hr])) (.inl rfl) (.inl rfl)
      (pump_update_or _ hunborn)
  | write hr => exact he.setReader (by simp [sending, hr]) rfl rfl rfl rfl
  | erase hr => exact he.setReader (by simp [sending, hr]) rfl rfl rfl rfl
  | store hr => exact he.setReader (by simp [sending, hr]) rfl rfl rfl rfl
  | stop hr => exact absurd hr (looping_ne hs rfl)
  | abort hr => exact absurd hr (looping_ne hs rfl)
  | swap hr => exact absurd hr (looping_ne hs rfl)
  | sweep hr => exact absurd hr (looping_ne hs rfl)
  | forwarder _ hm =>
    refine he.setForwarder ?_ rfl rfl rfl rfl
    cases hm <;> simp [sending, *]
  | allocate _ hf => exact he.setForwarder (by simp [sending, hf]) rfl rfl rfl rfl
  | add _ hf =>
    exact he.keep rfl (.inl rfl) (.inr (by simp [sending, hf])) (.inl rfl)
      (pump_update_or _ hunborn)
  | @spawn _ c _ hf =>
    refine he.keep rfl (.inl rfl) (.inr (by simp [sending, hf])) (.inl rfl) (pump_update_or _ ?_)
    simp [sending, (ht.spawning c hf).2]
  | forwarderErase _ hf => exact he.setForwarder (by simp [sending, hf]) rfl rfl rfl rfl
  | forwarderStore _ hf => exact he.setForwarder (by simp [sending, hf]) rfl rfl rfl rfl
  | recv hp =>
    exact he.keep rfl (.inl rfl) (.inl rfl) (.inl rfl) (pump_update_or _ (by simp [sending, hp]))
  | recvEnd hp =>
    exact he.keep rfl (.inl rfl) (.inl rfl) (.inl rfl) (pump_update_or _ (by simp [sending, hp]))
  | exchange hp =>
    exact he.keep rfl (.inl rfl) (.inl rfl) (.inl rfl) (pump_update_or _ (by simp [sending, hp]))
  | pumpErase hp =>
    exact he.keep rfl (.inl rfl) (.inl rfl) (.inl rfl) (pump_update_or _ (by simp [sending, hp]))
  | beat hk =>
    exact he.keep rfl (.inl rfl) (.inl rfl) (.inr (by simp [sending, hk])) fun _ => .inl rfl
  | lock hw =>
    intro t ht
    obtain rfl := Option.some.inj ht
    exact hlock _ rfl
  | dropped _ hdead => exact absurd hs.alive (by simp [hdead])
  | transmit => exact fun t ht => by cases ht
  | others => exact he

/-- Where a thread is in `Send`, it can go on, or the thread that writes
can. -/
theorem progress_of_sending {side : Side} {target : Text} {e : Endpoint} (hs : Standing e)
    (hi : InSend target e) {t : Thread} (ht : e.sending target t ≠ none) :
    ∃ a e', e.Internal a ∧ (∀ f, a ≠ .read f) ∧ e.step side target a = some e' := by
  cases hw : e.writer with
  | none =>
    obtain ⟨f, hf⟩ := Option.ne_none_iff_exists'.1 ht
    refine ⟨.lock t, { e with writer := some t }, trivial, by simp, ?_⟩
    simp only [step, hw, hf, hs.alive, if_true]
  | some t' =>
    obtain ⟨f, hf⟩ := Option.ne_none_iff_exists'.1 (hi t' hw)
    have hstep : ∃ e', e.step side target (.transmit t' true) = some e' := by
      simp only [step, hf, hw, if_true]
      exact ⟨_, rfl⟩
    obtain ⟨e', he'⟩ := hstep
    exact ⟨.transmit t' true, e', rfl, by simp, he'⟩

/-- A read loop that is not in `Read` can go on. -/
theorem progress_of_reader {side : Side} {target : Text} {e : Endpoint} (hs : Standing e)
    (hi : InSend target e) (hr : e.reader ≠ .reading) :
    ∃ a e', e.Internal a ∧ (∀ f, a ≠ .read f) ∧ e.step side target a = some e' := by
  have hgo : ∀ e', e.readerStep side target false = some e' →
      ∃ a e', e.Internal a ∧ (∀ f, a ≠ .read f) ∧ e.step side target a = some e' :=
    fun e' h => ⟨.reader false, e', trivial, by simp, h⟩
  cases h : e.reader with
  | registering => exact progress_of_sending hs hi (t := .reader) (by simp [sending, h])
  | reading => exact absurd h hr
  | handling f => exact hgo _ (by simp only [readerStep, h]; rfl)
  | removing t => exact hgo _ (by simp only [readerStep, h]; rfl)
  | adding t => exact hgo _ (by simp only [readerStep, h]; rfl)
  | writing n c rest =>
    cases rest with
    | nil => exact hgo _ (by simp only [readerStep, h]; rfl)
    | cons b rest =>
      have hstep : ∃ e', e.step side target (.write 1) = some e' := by
        simp only [step, h, List.length_cons]
        rw [if_pos (by omega)]
        exact ⟨_, rfl⟩
      obtain ⟨e', he'⟩ := hstep
      exact ⟨.write 1, e', trivial, by simp, he'⟩
  | erasing n reply =>
    cases hl : e.conns.lookup n with
    | none => exact hgo _ (by simp only [readerStep, h, hl]; rfl)
    | some c => exact hgo _ (by simp only [readerStep, h, hl]; rfl)
  | storing c reply => exact hgo _ (by simp only [readerStep, h]; rfl)
  | sending f => exact progress_of_sending hs hi (t := .reader) (by simp [sending, h])
  | unwinding => exact absurd h (looping_ne hs rfl)
  | stopping => exact absurd h (looping_ne hs rfl)
  | aborting => exact absurd h (looping_ne hs rfl)
  | swapping => exact absurd h (looping_ne hs rfl)
  | closing taken => exact absurd h (looping_ne hs rfl)
  | finished => exact absurd h (looping_ne hs rfl)

/-- A forwarder that has a connection to open can go on. -/
theorem progress_of_forwarder {side : Side} {target : Text} {e : Endpoint} (hs : Standing e)
    (ht : Tabled side e) (hi : InSend target e) (hf : e.forwarder ≠ .accepting) :
    ∃ a e', e.Internal a ∧ (∀ f, a ≠ .read f) ∧ e.step side target a = some e' := by
  obtain rfl : side = .server := by
    cases side with
    | server => rfl
    | client => exact absurd (ht.client rfl).1 hf
  have hgo : ∀ e', e.forwarderStep .server target = some e' →
      ∃ a e', e.Internal a ∧ (∀ f, a ≠ .read f) ∧ e.step .server target a = some e' :=
    fun e' h => ⟨.forwarder, e', hf, by simp, h⟩
  cases h : e.forwarder with
  | accepting => exact absurd h hf
  | fetching => exact hgo _ (by simp only [forwarderStep, h]; rfl)
  | allocating => exact hgo _ (by simp only [forwarderStep, h]; rfl)
  | adding n => exact hgo _ (by simp only [forwarderStep, h]; rfl)
  | opening n c => exact progress_of_sending hs hi (t := .forwarder) (by simp [sending, h])
  | spawning c => exact hgo _ (by simp only [forwarderStep, h]; rfl)
  | erasing n => exact absurd h (hs.erasing n)
  | storing c => exact absurd h (hs.storing c)

/-- A pump that is not in `recv` can go on. -/
theorem progress_of_pump {side : Side} {target : Text} {e : Endpoint} (hs : Standing e)
    (hi : InSend target e) {c : ℕ}
    (hp : ¬ (e.pump c = .unborn ∨ e.pump c = .receiving ∨ e.pump c = .done)) :
    ∃ a e', e.Internal a ∧ (∀ f, a ≠ .read f) ∧ e.step side target a = some e' := by
  have hgo : ∀ e', e.pumpStep c = some e' →
      ∃ a e', e.Internal a ∧ (∀ f, a ≠ .read f) ∧ e.step side target a = some e' :=
    fun e' h => ⟨.pump c, e', trivial, by simp, h⟩
  cases h : e.pump c with
  | unborn => exact absurd (.inl h) hp
  | receiving => exact absurd (.inr (.inl h)) hp
  | done => exact absurd (.inr (.inr h)) hp
  | sending bytes => exact progress_of_sending hs hi (t := .pump c) (by simp [sending, h])
  | closing why => exact progress_of_sending hs hi (t := .pump c) (by simp [sending, h])
  | exchanging why => exact hgo _ (by simp only [pumpStep, h]; rfl)
  | erasing ours why => exact hgo _ (by simp only [pumpStep, h]; rfl)

/-- **An end that is not at rest can go on.** -/
theorem exists_internal {side : Side} (target : Text) {e : Endpoint} (hs : Standing e)
    (ht : Tabled side e) (hi : InSend target e) (hr : ¬ e.AtRest) :
    ∃ a e', e.Internal a ∧ (∀ f, a ≠ .read f) ∧ e.step side target a = some e' := by
  by_cases hreader : e.reader = .reading
  · by_cases hf : e.forwarder = .accepting
    · by_cases hk : e.keepalive = .sending
      · exact progress_of_sending hs hi (t := .keepalive) (by simp [sending, hk])
      · by_cases hp : ∀ c < e.added, e.pump c = .unborn ∨ e.pump c = .receiving ∨ e.pump c = .done
        · exact absurd ⟨hreader, hf, hk, hp⟩ hr
        · push Not at hp
          obtain ⟨c, -, hp⟩ := hp
          exact progress_of_pump hs hi (c := c) (by simpa using hp)
    · exact progress_of_forwarder hs ht hi hf
  · exact progress_of_reader hs hi hreader

end Endpoint

namespace Tunnel

/-! ## Both ends -/

/-- The step is one that an end takes by itself. -/
def Internal (net : Tunnel) (a : Side × EndpointAct) : Prop := (net.endpoint a.1).Internal a.2

/-- The work that is left at both ends and under way. -/
def weight (net : Tunnel) : ℕ :=
  net.server.weight + net.client.weight + weigh (net.underWay .server) +
    weigh (net.underWay .client)

theorem weight_eq (net : Tunnel) (side : Side) :
    net.weight = (net.endpoint side).weight + (net.endpoint side.other).weight +
      weigh (net.underWay side) + weigh (net.underWay side.other) := by
  cases side
  · rfl
  · show _ = net.client.weight + net.server.weight + weigh (net.underWay .client) +
      weigh (net.underWay .server)
    rw [weight]
    omega

/-- **The invariants of a tunnel that lasts**, with those of `write_mu_`. -/
structure Settling (target : Side → Text) (net : Tunnel) : Prop extends Agreeing net where
  inSend : ∀ side, Endpoint.InSend (target side) (net.endpoint side)

theorem settling_init (target : Side → Text) : Settling target {} where
  toAgreeing := agreeing_init
  inSend side := endpoint_init side ▸ Endpoint.inSend_fresh side (target side)

theorem Settling.step {target : Side → Text} {net net' : Tunnel} {a : Side × EndpointAct}
    (hn : Settling target net) (ha : Lasting net a) (h : net.step target a = some net') :
    Settling target net' := by
  obtain ⟨side, a⟩ := a
  have hagree := hn.toAgreeing.step ha h
  obtain ⟨e, hstep, rfl, -⟩ := hn.steps h
  have hin := (hn.inSend side).step (hn.tabled side) (hn.standing side) hstep
  exact { hagree with
    inSend := forall_set (P := fun s => Endpoint.InSend (target s)) hin hn.inSend }

/-- **An internal step leaves less to do.** -/
theorem Settling.weight_lt {target : Side → Text} {net net' : Tunnel} {a : Side × EndpointAct}
    (hn : Settling target net) (ha : Internal net a) (h : net.step target a = some net') :
    net'.weight < net.weight := by
  have hsound := hn.toSound.step h
  obtain ⟨side, a⟩ := a
  obtain ⟨e, hstep, rfl, -⟩ := hn.steps h
  obtain ⟨ins, outs, hrec, hsent, hlt⟩ :=
    Endpoint.worked_of_step (hn.standing side) (hn.tabled side) hstep ha
  have hother : (net.set side e).endpoint side.other = net.endpoint side.other :=
    endpoint_set_of_ne net side.other_ne e
  -- what was read is no longer under way, and what was sent is
  have hforth : weigh (net.underWay side) = weigh ins + weigh ((net.set side e).underWay side) := by
    obtain ⟨rest, hrest⟩ := hsound.fifo side
    rw [endpoint_set_self, hother, hrec] at hrest
    rw [← weigh_append, underWay, underWay, hother, endpoint_set_self, hrec, ← hrest,
      List.append_assoc, List.drop_left, ← List.append_assoc, List.drop_left]
  have hback : weigh ((net.set side e).underWay side.other) =
      weigh (net.underWay side.other) + weigh outs := by
    obtain ⟨rest, hrest⟩ := hn.fifo side.other
    rw [Side.other_other] at hrest
    rw [← weigh_append, underWay, underWay, Side.other_other, hother, endpoint_set_self, hsent,
      ← hrest, List.append_assoc, List.drop_left, List.drop_left]
  rw [weight_eq _ side, weight_eq net side, endpoint_set_self, hother, hback, hforth]
  omega

/-- **Until it is at rest some thread can go on.** -/
theorem Settling.exists_internal {target : Side → Text} {net : Tunnel} (hn : Settling target net)
    (hr : ¬ AtRest net) : ∃ a net', Internal net a ∧ net.step target a = some net' := by
  have hown : ∀ {side a e}, (net.endpoint side).Internal a → net.delivers side a = true →
      (net.endpoint side).step side (target side) a = some e →
      ∃ a net', Internal net a ∧ net.step target a = some net' := by
    intro side a e ha hdel he
    refine ⟨(side, a), net.set side e, ha, ?_⟩
    simp only [Tunnel.step, hdel, if_true, he, Option.map_some]
  by_cases hends : ∀ side, (net.endpoint side).AtRest
  · -- both ends wait, and one of them has something to read
    have hsome : ∃ side, net.underWay side ≠ [] := by
      by_contra hnone
      push Not at hnone
      exact hr ⟨hends, hnone⟩
    obtain ⟨side, hside⟩ := hsome
    obtain ⟨f, rest, hf⟩ := List.exists_cons_of_ne_nil hside
    have hread : (net.endpoint side).step side (target side) (.read (some f)) =
        some { net.endpoint side with
          received := (net.endpoint side).received ++ [f], reader := .handling f } := by
      simp only [Endpoint.step, (hends side).reader]
    exact hown (by simp [Endpoint.Internal]) (by simp [delivers, hf]) hread
  · push Not at hends
    obtain ⟨side, hside⟩ := hends
    obtain ⟨a, e, ha, hread, he⟩ := Endpoint.exists_internal (target side)
      (hn.standing side) (hn.tabled side) (hn.inSend side) hside
    refine hown ha ?_ he
    cases a with
    | read f => exact absurd rfl (hread f)
    | _ => rfl

/-- **Every tunnel settles.** From every state of a tunnel that has lasted,
the threads of both ends can take so many steps by themselves and no more,
whatever their order; where none can take another the tunnel is at rest;
and it can come to rest. -/
theorem settles {target : Side → Text} {as : List (Side × EndpointAct)} {net : Tunnel}
    (hlast : Along (step target) Lasting {} as) (h : exec (step target) {} as = some net) :
    (∀ bs net', Along (step target) Internal net bs → exec (step target) net bs = some net' →
      bs.length ≤ net.weight ∧
        ((∀ a, Internal net' a → net'.step target a = none) → AtRest net')) ∧
    ∃ bs net', Along (step target) Internal net bs ∧ exec (step target) net bs = some net' ∧
      AtRest net' := by
  have hn : Settling target net := exec_invariant_along (fun _ _ _ hI ha hs => hI.step ha hs)
    (settling_init target) hlast h
  have hstep : ∀ s a t, Settling target s → Internal s a → s.step target a = some t →
      Settling target t ∧ t.weight < s.weight := fun s a t hs ha ht =>
    ⟨hs.step ha.lasting ht, hs.weight_lt ha ht⟩
  refine ⟨fun bs net' hbs hnet' => ⟨?_, fun hstuck => ?_⟩, ?_⟩
  · have hle := exec_length_le hstep hn hbs hnet'
    omega
  · have hn' : Settling target net' :=
      exec_invariant_along (fun s a t hs ha ht => (hstep s a t hs ha ht).1) hn hbs hnet'
    by_contra hr
    obtain ⟨a, net'', ha, hgo⟩ := hn'.exists_internal hr
    exact absurd ((hstuck a ha).symm.trans hgo) (by simp)
  · exact exists_exec_of_progress hstep (fun s hs hr => hs.exists_internal hr) hn

/-- The server has sent bytes, and the client has not read them. -/
theorem settles_helloStream :
    Along (step fun _ => "edge-1".toList) Lasting {} (helloStream.take 21) ∧
      ∃ net, exec (step fun _ => "edge-1".toList) {} (helloStream.take 21) = some net ∧
        ¬ AtRest net ∧
        ∃ bs net', Along (step fun _ => "edge-1".toList) Internal net bs ∧
          exec (step fun _ => "edge-1".toList) net bs = some net' ∧ bs.length ≤ net.weight ∧
          AtRest net' := by
  have hlast : Along (step fun _ => "edge-1".toList) Lasting {} (helloStream.take 21) := by
    decide +kernel
  have hrun : (exec (step fun _ => "edge-1".toList) {} (helloStream.take 21)).any (fun net =>
      decide (¬ AtRest net)) = true := by
    decide +kernel
  obtain ⟨net, hnet, hbusy⟩ := (Option.any_eq_true _ _).1 hrun
  obtain ⟨hbound, bs, net', hbs, hnet', hrest⟩ := settles hlast hnet
  exact ⟨hlast, net, hnet, of_decide_eq_true hbusy, bs, net', hbs, hnet',
    (hbound bs net' hbs hnet').1, hrest⟩

end Tunnel

end ZeroTouch
