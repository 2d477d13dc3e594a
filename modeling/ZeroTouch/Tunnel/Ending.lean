import ZeroTouch.Tunnel.Settling
import ZeroTouch.Tunnel.Teardown
/-!
# Every session that ends winds down

`Shutdown` makes every later `Send` fail, and `CloseAll` shuts the sockets
down, so that a pump in `recv` returns. What is left of a session is then a
bounded number of steps, and none of its threads waits for anything: the
teardown empties the table, the forwarder takes back what it had in hand,
and every pump comes to its end, without a word to the peer
(`winds_down`). The same holds of a client that could not register.
-/

namespace ZeroTouch

/-- What is left of the teardown, with so many entries in the table. -/
def ReaderPc.leftover (entries : ℕ) : ReaderPc → ℕ
  | .swapping => entries + 3
  | .closing taken => taken.length + 1
  | _ => 0

/-- What is left for a forwarder whose `Send` fails. -/
def ForwarderPc.leftover : ForwarderPc → ℕ
  | .accepting => 0
  | .fetching => 7
  | .allocating => 6
  | .adding _ => 5
  | .opening _ _ => 3
  | .spawning _ => 6
  | .erasing _ => 2
  | .storing _ => 1

/-- What is left for a pump whose socket is shut down. -/
def PumpPc.leftover : PumpPc → ℕ
  | .unborn => 0
  | .receiving => 5
  | .sending _ => 4
  | .exchanging _ => 3
  | .erasing _ _ => 2
  | .closing _ => 1
  | .done => 0

def KeepalivePc.leftover : KeepalivePc → ℕ
  | .stopped => 0
  | .waiting => 2
  | .sending => 1

namespace Endpoint

/-- The teardown is past `Shutdown`. -/
def Over (r : ReaderPc) : Prop := r = .swapping ∨ Swept r

theorem ReaderMoves.over {side : Side} {e : Endpoint} {r : ReaderPc} (h : ReaderMoves side e r)
    (ho : Over e.reader) : e.reader = .closing [] ∧ r = .finished := by
  cases h with
  | swept hr => exact ⟨hr, rfl⟩
  | _ => simp_all [Over, Swept]

/-- A read loop that is past `Shutdown` is at none of its other places. -/
theorem Over.ne {r r' : ReaderPc} (h : Over r) (hr : r = r') :
    r' = .swapping ∨ r' = .finished ∨ ∃ taken, r' = .closing taken := by
  subst hr
  exact h

/-- **Nothing but the teardown ends a session.** -/
def Halted (e : Endpoint) : Prop := e.alive = false → Over e.reader

theorem halted_fresh (side : Side) : Halted (fresh side) := by
  cases side <;> simp [Halted, fresh]

theorem Halted.step {side : Side} {target : Text} {e e' : Endpoint} {a : EndpointAct}
    (he : Halted e) (h : Steps side target e a e') : Halted e' := by
  intro hdead
  cases h with
  | stop => exact .inl rfl
  | abort => exact .inr (.inl rfl)
  | swap => exact .inr (.inr ⟨_, rfl⟩)
  | sweep => exact .inr (.inr ⟨_, rfl⟩)
  | moves _ _ hm =>
    obtain ⟨-, rfl⟩ := hm.over (he hdead)
    exact .inr (.inl rfl)
  | read hr => exact absurd ((he hdead).ne hr) (by simp)
  | dialed _ hr => exact absurd ((he hdead).ne hr) (by simp)
  | write hr => exact absurd ((he hdead).ne hr) (by simp)
  | erase hr => exact absurd ((he hdead).ne hr) (by simp)
  | store hr => exact absurd ((he hdead).ne hr) (by simp)
  | dropped _ ha hret =>
    have hover := he ha
    cases hret with
    | register hr => exact absurd (hover.ne hr) (by simp)
    | reader hr => exact absurd (hover.ne hr) (by simp)
    | _ => exact hover
  | transmit _ hret =>
    have hover := he (hret.alive_eq.symm.trans hdead)
    cases hret with
    | register hr => exact absurd (hover.ne hr) (by simp)
    | reader hr => exact absurd (hover.ne hr) (by simp)
    | _ => exact hover
  | _ => exact he hdead

/-- **The end of a session at the client.** No forwarder adds to its table
after `CloseAll`, and a client that could not register has nothing in it. -/
structure Drained (e : Endpoint) : Prop where
  late : e.late = []
  writer : ∀ t, e.writer = some t → e.alive = true
  dead : Over e.reader → e.alive = false
  unregistered : e.reader = .registering ∨ e.reader = .aborting → e.added = 0
  swept : Swept e.reader → e.conns = ∅

theorem drained_fresh : Drained (fresh .client) := by
  constructor <;> simp [fresh, Over, Swept]

/-- The read loop goes on, neither before its introduction nor past
`Shutdown`. -/
theorem Drained.setReader {e : Endpoint} (he : Drained e) {r : ReaderPc} (hr : ¬ Over r)
    (hreg : r ≠ .registering) (habort : r ≠ .aborting) : Drained { e with reader := r } :=
  { he with
    dead := fun h => absurd h hr
    unregistered := fun h => absurd h (by simp [hreg, habort])
    swept := fun h => absurd (.inr h) hr }

theorem not_over_afterClose (reply : Option Frame) :
    ¬ Over (afterClose reply) ∧ afterClose reply ≠ .registering ∧ afterClose reply ≠ .aborting := by
  cases reply <;> simp [afterClose, Over, Swept]

theorem Drained.moves {e : Endpoint} {r : ReaderPc} (he : Drained e)
    (h : ReaderMoves .client e r) : Drained { e with reader := r } := by
  cases h with
  | swept hr =>
    have hswept : Swept e.reader := .inr ⟨[], hr⟩
    exact { he with
      dead := fun _ => he.dead (.inr hswept)
      unregistered := by simp
      swept := fun _ => he.swept hswept }
  | asked _ hr' =>
    rcases hr' with rfl | rfl <;> exact he.setReader (by simp [Over, Swept]) (by simp) (by simp)
  | @gone _ reply =>
    obtain ⟨hover, hreg, habort⟩ := not_over_afterClose reply
    exact he.setReader hover hreg habort
  | _ => exact he.setReader (by simp [Over, Swept]) (by simp) (by simp)

theorem Drained.returns {target : Text} {e e' : Endpoint} {ok : Bool} {f : Frame} {t : Thread}
    (he : Drained e) (h : Returns target e ok f t e') : Drained e' := by
  cases h with
  | register hr =>
    have hadded := he.unregistered (.inl hr)
    cases ok with
    | true => exact { he.setReader (r := .reading) (by simp [Over, Swept]) (by simp) (by simp) with }
    | false =>
      exact { he with
        dead := by simp [Over, Swept]
        unregistered := fun _ => hadded
        swept := by simp [Swept] }
  | reader => exact he.setReader (by simp [Over, Swept]) (by simp) (by simp)
  | _ => exact { he with }

theorem eq_empty_of_lookup {s : AList (fun _ : ℕ => ℕ)} (h : ∀ n, s.lookup n = none) : s = ∅ := by
  refine AList.ext (List.eq_nil_iff_forall_not_mem.2 fun entry hentry => ?_)
  exact absurd (AList.mem_lookup_iff.2 hentry) (by simp [h])

theorem Drained.step {target : Text} {e e' : Endpoint} {a : EndpointAct} (he : Drained e)
    (ht : Tabled .client e) (h : Steps .client target e a e') : Drained e' := by
  have herase : ∀ n, Swept e.reader → e.conns.erase n = ∅ := by
    intro n hs
    rw [he.swept hs]
    exact eq_empty_of_lookup fun m => Option.eq_none_iff_forall_ne_some.2 fun c hc =>
      absurd (lookup_erase_eq_some.1 hc).2 (by simp)
  cases h with
  | @read f => exact { he.setReader (r := .handling f) (by simp [Over, Swept]) (by simp) (by simp) with }
  | moves reg t hm => exact { he.moves hm with }
  | dialed =>
    exact { he with
      dead := by simp [Over, Swept], unregistered := by simp, swept := by simp [Swept] }
  | @write _ n c k rest =>
    exact { he.setReader (r := .writing n c (rest.drop k)) (by simp [Over, Swept]) (by simp)
      (by simp) with }
  | @erase _ n c reply =>
    exact { he with
      dead := by simp [Over, Swept], unregistered := by simp, swept := by simp [Swept] }
  | @store _ c reply =>
    obtain ⟨hover, hreg, habort⟩ := not_over_afterClose reply
    exact { he.setReader hover hreg habort with }
  | stop _ hw =>
    exact { he with
      writer := by simp [hw], dead := fun _ => rfl, unregistered := by simp
      swept := by simp [Swept] }
  | abort hr hw =>
    have hadded := he.unregistered (.inr hr)
    refine { he with
      writer := by simp [hw], dead := fun _ => rfl, unregistered := by simp, swept := fun _ => ?_ }
    refine eq_empty_of_lookup fun n => Option.eq_none_iff_forall_ne_some.2 fun c hc => ?_
    have hlt := (ht.table n c hc).1
    omega
  | swap hr =>
    exact { he with
      dead := fun _ => he.dead (.inl hr), unregistered := by simp, swept := fun _ => rfl }
  | sweep hr =>
    have hswept : Swept e.reader := .inr ⟨_, hr⟩
    exact { he with
      dead := fun _ => he.dead (.inr hswept), unregistered := by simp
      swept := fun _ => he.swept hswept }
  | forwarder hside => cases hside
  | allocate hside => cases hside
  | add hside => cases hside
  | spawn hside => cases hside
  | forwarderErase hside => cases hside
  | forwarderStore hside => cases hside
  | pumpErase => exact { he with swept := herase _ }
  | lock _ ha => exact { he with writer := fun _ _ => ha }
  | dropped _ _ hret => exact he.returns hret
  | transmit hw hret =>
    have halive := he.writer _ hw
    exact { he.returns hret with late := by simp [halive, he.late], writer := by simp }
  | _ => exact { he with }

/-- **The invariants of an end, to its end.** -/
structure Ending (side : Side) (e : Endpoint) : Prop where
  tabled : Tabled side e
  accounted : Accounted e
  halted : Halted e
  server : side = .server → Torn e
  client : side = .client → Drained e

theorem ending_fresh (side : Side) : Ending side (fresh side) where
  tabled := tabled_fresh side
  accounted := accounted_fresh side
  halted := halted_fresh side
  server := by
    rintro rfl
    exact torn_fresh
  client := by
    rintro rfl
    exact drained_fresh

theorem Ending.step {side : Side} {target : Text} {e e' : Endpoint} {a : EndpointAct}
    (he : Ending side e) (h : Steps side target e a e')
    (hread : ∀ f, a = .read (some f) → side = .client → f.After e.received) : Ending side e' where
  tabled := he.tabled.step h hread
  accounted := he.accounted.step he.tabled h
  halted := he.halted.step h
  server := by
    rintro rfl
    exact (he.server rfl).step he.tabled h
  client := by
    rintro rfl
    exact (he.client rfl).step he.tabled h

theorem Ending.late {side : Side} {e : Endpoint} (he : Ending side e) : e.late = [] := by
  cases side with
  | server => exact (he.server rfl).late
  | client => exact (he.client rfl).late

/-- After `Shutdown` nobody is writing. -/
theorem Ending.writer {side : Side} {e : Endpoint} (he : Ending side e) (hdead : e.alive = false) :
    e.writer = none := by
  rw [Option.eq_none_iff_forall_ne_some]
  intro t ht
  have halive : e.alive = true := by
    cases side with
    | server => exact (he.server rfl).writer t ht
    | client => exact (he.client rfl).writer t ht
  simp [hdead] at halive

/-- A table that was swapped holds what the forwarder is about to take back,
and nothing else. -/
theorem Ending.swept {side : Side} {e : Endpoint} (he : Ending side e) (hs : Swept e.reader)
    {n c : ℕ} (hl : e.conns.lookup n = some c) : e.forwarder = .opening n c ∨ e.forwarder = .erasing n := by
  cases side with
  | server => exact (he.server rfl).swept hs n c hl
  | client => exact absurd ((he.client rfl).swept hs ▸ hl) (by simp)

/-! ## After `Shutdown` -/

/-- What is left for the threads of an end after `Shutdown`. -/
def leftover (e : Endpoint) : ℕ :=
  e.reader.leftover e.conns.entries.length + e.forwarder.leftover + e.keepalive.leftover +
    e.pumpSum PumpPc.leftover

/-- A step of the session's own threads; the forwarder accepts no
connection for it, and the other sessions are not looked at. -/
def Winding (e : Endpoint) : EndpointAct → Prop
  | .forwarder => e.forwarder ≠ .accepting
  | .otherAdd .. | .otherRemove .. => False
  | _ => True

theorem length_erase_le (s : AList (fun _ : ℕ => ℕ)) (n : ℕ) :
    (s.erase n).entries.length ≤ s.entries.length :=
  (List.kerase_sublist n s.entries).length_le

theorem length_insert_le (s : AList (fun _ : ℕ => ℕ)) (n c : ℕ) :
    (s.insert n c).entries.length ≤ s.entries.length + 1 :=
  Nat.succ_le_succ (length_erase_le s n)

/-- A smaller table leaves no more to tear down. -/
theorem leftover_mono {r : ReaderPc} {m n : ℕ} (h : m ≤ n) : r.leftover m ≤ r.leftover n := by
  cases r with
  | swapping => exact Nat.add_le_add_right h 3
  | _ => exact Nat.le_refl _

theorem leftover_succ {r : ReaderPc} {m n : ℕ} (h : m ≤ n + 1) :
    r.leftover m ≤ r.leftover n + 1 := by
  cases r with
  | swapping => exact Nat.add_le_add_right h 3
  | _ => exact Nat.le_succ _

/-- **A session winds down** by a step: it stays shut down, says nothing, and
has less left to do. -/
def WindsTo (e e' : Endpoint) : Prop :=
  e'.alive = false ∧ e'.sent = e.sent ∧ e'.leftover < e.leftover

theorem WindsTo.setPump {e e' : Endpoint} {c : ℕ} {p : PumpPc} (hdead : e.alive = false)
    (hc : c < e.added) (hp : p.leftover < (e.pump c).leftover) (halive : e'.alive = e.alive)
    (hsent : e'.sent = e.sent) (hr : e'.reader = e.reader) (hf : e'.forwarder = e.forwarder)
    (hk : e'.keepalive = e.keepalive) (hadded : e'.added = e.added)
    (hpump : e'.pump = Function.update e.pump c p)
    (hlen : e'.conns.entries.length ≤ e.conns.entries.length) : WindsTo e e' := by
  have hpumps : e'.pumpSum PumpPc.leftover + (e.pump c).leftover =
      e.pumpSum PumpPc.leftover + p.leftover := by
    rw [← pumpSum_update PumpPc.leftover hc rfl p, pumpSum, pumpSum, hadded, hpump]
  have hreader := leftover_mono (r := e.reader) hlen
  refine ⟨halive.trans hdead, hsent, ?_⟩
  simp only [leftover, hr, hf, hk]
  omega

theorem WindsTo.setForwarder {e e' : Endpoint} (hdead : e.alive = false)
    (hf : e'.reader.leftover e'.conns.entries.length + e'.forwarder.leftover +
        e'.pumpSum PumpPc.leftover <
      e.reader.leftover e.conns.entries.length + e.forwarder.leftover +
        e.pumpSum PumpPc.leftover)
    (halive : e'.alive = e.alive) (hsent : e'.sent = e.sent) (hk : e'.keepalive = e.keepalive) :
    WindsTo e e' := by
  refine ⟨halive.trans hdead, hsent, ?_⟩
  simp only [leftover, hk]
  omega

theorem WindsTo.setReader {e e' : Endpoint} (hdead : e.alive = false)
    (hr : e'.reader.leftover e'.conns.entries.length < e.reader.leftover e.conns.entries.length)
    (halive : e'.alive = e.alive) (hsent : e'.sent = e.sent) (hf : e'.forwarder = e.forwarder)
    (hk : e'.keepalive = e.keepalive)
    (hp : e'.pumpSum PumpPc.leftover = e.pumpSum PumpPc.leftover) : WindsTo e e' := by
  refine ⟨halive.trans hdead, hsent, ?_⟩
  simp only [leftover, hf, hk, hp]
  omega

theorem winds_readerStep {side : Side} {target : Text} {e e' : Endpoint} {dialed : Bool}
    (hdead : e.alive = false) (ho : Over e.reader)
    (h : e.readerStep side target dialed = some e') : WindsTo e e' := by
  simp only [readerStep] at h
  rcases ho with hr | hr | ⟨taken, hr⟩
  · simp only [hr] at h
    refine Option.some.inj h ▸ .setReader hdead ?_ rfl rfl rfl rfl rfl
    simp [hr, ReaderPc.leftover]
  · simp only [hr] at h
    cases h
  · cases taken with
    | nil =>
      simp only [hr] at h
      refine Option.some.inj h ▸ .setReader hdead ?_ rfl rfl rfl rfl rfl
      simp [hr, ReaderPc.leftover]
    | cons c taken =>
      simp only [hr] at h
      refine Option.some.inj h ▸ .setReader hdead ?_ rfl rfl rfl rfl rfl
      simp [hr, ReaderPc.leftover]

theorem winds_forwarderStep {side : Side} {target : Text} {e e' : Endpoint}
    (ht : Tabled side e) (hdead : e.alive = false) (hw : e.forwarder ≠ .accepting)
    (h : e.forwarderStep side target = some e') : WindsTo e e' := by
  -- the forwarder goes on, and its table grows by as much as it has less to do
  have hgo : ∀ {f : ForwarderPc} {n : ℕ}, f.leftover < e.forwarder.leftover →
      WindsTo e { e with nextId := n, forwarder := f } := fun hlt =>
    .setForwarder hdead (by simpa [pumpSum] using hlt) rfl rfl rfl
  simp only [forwarderStep] at h
  split at h
  case h_1 hf => exact absurd hf hw
  case h_2 hf =>
    refine Option.some.inj h ▸ hgo ?_
    rw [hf]
    split <;> simp [ForwarderPc.leftover]
  case h_3 hf =>
    refine Option.some.inj h ▸ hgo ?_
    simp [hf, ForwarderPc.leftover]
  case h_4 n hf =>
    have hreader := leftover_succ (r := e.reader) (length_insert_le e.conns n e.added)
    have hpumps : pumpSum PumpPc.leftover (e.addConn n .unborn) = e.pumpSum PumpPc.leftover :=
      e.pumpSum_addConn n rfl
    refine Option.some.inj h ▸ .setForwarder hdead ?_ rfl rfl rfl
    show e.reader.leftover (e.conns.insert n e.added).entries.length + 3 +
      pumpSum PumpPc.leftover (e.addConn n .unborn) < _
    rw [hf, hpumps]
    simp only [ForwarderPc.leftover]
    omega
  case h_5 c hf =>
    obtain ⟨hc, hp⟩ := ht.spawning c hf
    have hpumps := pumpSum_update PumpPc.leftover hc hp .receiving
    simp only [PumpPc.leftover] at hpumps
    have hleft : e.forwarder.leftover = 6 := by rw [hf]; rfl
    refine Option.some.inj h ▸ .setForwarder hdead ?_ rfl rfl rfl
    show e.reader.leftover e.conns.entries.length + 0 +
      pumpSum PumpPc.leftover { e with pump := Function.update e.pump c .receiving } < _
    omega
  case h_6 n hf =>
    split at h
    case h_1 =>
      refine Option.some.inj h ▸ hgo ?_
      simp [hf, ForwarderPc.leftover]
    case h_2 c _ =>
      have hreader := leftover_mono (r := e.reader) (length_erase_le e.conns n)
      refine Option.some.inj h ▸ .setForwarder hdead ?_ rfl rfl rfl
      simp only [hf, ForwarderPc.leftover, pumpSum]
      omega
  case h_7 c hf =>
    refine Option.some.inj h ▸ .setForwarder hdead ?_ rfl rfl rfl
    simp [hf, ForwarderPc.leftover, pumpSum, store]
  case h_8 => cases h

theorem winds_returns {side : Side} {target : Text} {e e' : Endpoint} {f : Frame} {t : Thread}
    (ht : Tabled side e) (hdead : e.alive = false) (ho : Over e.reader)
    (h : Returns target e false f t e') : WindsTo e e' := by
  cases h with
  | register hr => exact absurd (ho.ne hr) (by simp)
  | reader hr => exact absurd (ho.ne hr) (by simp)
  | forwarder hf =>
    refine .setForwarder hdead ?_ rfl rfl rfl
    simp [hf, ForwarderPc.leftover, pumpSum]
  | keepalive hk =>
    refine ⟨hdead, rfl, ?_⟩
    simp [leftover, hk, KeepalivePc.leftover, pumpSum]
  | @data c bytes hp =>
    refine .setPump (p := .exchanging .lost) hdead (ht.lt_added (c := c) (by simp [hp])) ?_ rfl rfl
      rfl rfl rfl rfl rfl (Nat.le_refl _)
    simp [hp, PumpPc.leftover]
  | @close c why hp =>
    refine .setPump (p := .done) hdead (ht.lt_added (c := c) (by simp [hp])) ?_ rfl rfl
      rfl rfl rfl rfl rfl (Nat.le_refl _)
    simp [hp, PumpPc.leftover]

/-- **Every step of a session that is shut down winds it down.** -/
theorem Ending.winds {side : Side} {target : Text} {e e' : Endpoint} {a : EndpointAct}
    (he : Ending side e) (hdead : e.alive = false) (hw : e.Winding a)
    (h : e.step side target a = some e') : WindsTo e e' := by
  have ho := he.halted hdead
  have hwriter := he.writer hdead
  cases a with
  | read f =>
    simp only [Endpoint.step] at h
    split at h
    case h_1 hr => exact absurd (ho.ne hr) (by simp)
    case h_2 hr => exact absurd (ho.ne hr) (by simp)
    case h_3 => cases h
  | reader dialed => exact winds_readerStep hdead ho h
  | write k =>
    simp only [Endpoint.step] at h
    split at h
    case h_1 hr => exact absurd (ho.ne hr) (by simp)
    case h_2 => cases h
  | writeFailed =>
    simp only [Endpoint.step] at h
    split at h
    case h_1 hr => exact absurd (ho.ne hr) (by simp)
    case h_2 => cases h
  | forwarder => exact winds_forwarderStep he.tabled hdead hw h
  | recv c bytes =>
    simp only [Endpoint.step] at h
    split at h
    case h_1 hp =>
      have hc := he.tabled.lt_added (c := c) (by simp [hp])
      split at h
      case isTrue =>
        refine Option.some.inj h ▸ .setPump hdead hc ?_ rfl rfl rfl rfl rfl rfl rfl (Nat.le_refl _)
        simp [hp, PumpPc.leftover]
      case isFalse => cases h
    case h_2 => cases h
  | recvEnd c eof =>
    simp only [Endpoint.step] at h
    split at h
    case h_1 hp =>
      have hc := he.tabled.lt_added (c := c) (by simp [hp])
      refine Option.some.inj h ▸ .setPump hdead hc ?_ rfl rfl rfl rfl rfl rfl rfl (Nat.le_refl _)
      simp [hp, PumpPc.leftover]
    case h_2 => cases h
  | pump c =>
    simp only [Endpoint.step, pumpStep] at h
    split at h
    case h_1 why hp =>
      have hc := he.tabled.lt_added (c := c) (by simp [hp])
      refine Option.some.inj h ▸ .setPump hdead hc ?_ rfl rfl rfl rfl rfl rfl rfl (Nat.le_refl _)
      simp [hp, PumpPc.leftover]
    case h_2 ours why hp =>
      have hc := he.tabled.lt_added (c := c) (by simp [hp])
      refine Option.some.inj h ▸ .setPump hdead hc ?_ rfl rfl rfl rfl rfl rfl rfl
        (length_erase_le _ _)
      rw [hp]
      cases ours <;> simp [PumpPc.leftover]
    case h_3 => cases h
  | beat =>
    simp only [Endpoint.step] at h
    split at h
    case h_1 hk =>
      obtain rfl := Option.some.inj h
      refine ⟨hdead, rfl, ?_⟩
      simp [leftover, hk, KeepalivePc.leftover, pumpSum]
    case h_2 => cases h
  | lock t =>
    simp only [Endpoint.step, hdead] at h
    split at h
    case h_1 f _ hsend =>
      exact Option.some.inj h ▸ winds_returns he.tabled hdead ho (returns_of_sending hsend false)
    case h_2 => cases h
  | transmit t ok =>
    simp only [Endpoint.step, hwriter] at h
    split at h
    case h_1 => cases h
    case h_2 => cases h
  | otherAdd => exact hw.elim
  | otherRemove => exact hw.elim

/-- The threads of the session have come to their end: the handler has
returned, or `RunTunnel`; the forwarder has let go; and no pump runs. -/
structure Wound (side : Side) (e : Endpoint) : Prop where
  reader : e.reader = .finished
  forwarder : e.forwarder = .accepting
  keepalive : side = .client → e.keepalive = .stopped
  pump : ∀ c < e.added, e.pump c = .unborn ∨ e.pump c = .done

/-- **Until its threads have come to their end one can go on.** -/
theorem Ending.exists_winding {side : Side} (target : Text) {e : Endpoint} (he : Ending side e)
    (hdead : e.alive = false) (hw : ¬ Wound side e) :
    ∃ a e', e.Winding a ∧ e.step side target a = some e' := by
  have hwriter := he.writer hdead
  have hsend : ∀ t, e.sending target t ≠ none →
      ∃ a e', e.Winding a ∧ e.step side target a = some e' := by
    intro t ht
    obtain ⟨f, hf⟩ := Option.ne_none_iff_exists'.1 ht
    refine ⟨.lock t, e.resume false t, trivial, ?_⟩
    simp only [Endpoint.step, hwriter, hf, hdead, Bool.false_eq_true, if_false]
  by_cases hreader : e.reader = .finished
  · by_cases hf : e.forwarder = .accepting
    · by_cases hk : side = .client → e.keepalive = .stopped
      · have hp : ∃ c < e.added, ¬ (e.pump c = .unborn ∨ e.pump c = .done) := by
          by_contra hall
          push Not at hall
          exact hw ⟨hreader, hf, hk, fun c hc => by simpa [or_iff_not_imp_left] using hall c hc⟩
        obtain ⟨c, -, hp⟩ := hp
        cases h : e.pump c with
        | unborn => exact absurd (.inl h) hp
        | done => exact absurd (.inr h) hp
        | receiving =>
          exact ⟨.recvEnd c true, _, trivial, by simp only [Endpoint.step, h]; rfl⟩
        | sending bytes => exact hsend (.pump c) (by simp [sending, h])
        | closing why => exact hsend (.pump c) (by simp [sending, h])
        | exchanging why =>
          exact ⟨.pump c, _, trivial, by simp only [Endpoint.step, pumpStep, h]; rfl⟩
        | erasing ours why =>
          exact ⟨.pump c, _, trivial, by simp only [Endpoint.step, pumpStep, h]; rfl⟩
      · push Not at hk
        obtain ⟨rfl, hk⟩ := hk
        cases h : e.keepalive with
        | stopped => exact absurd h hk
        | waiting => exact ⟨.beat, _, trivial, by simp only [Endpoint.step, h]; rfl⟩
        | sending => exact hsend .keepalive (by simp [sending, h])
    · have hgo : ∀ e', e.forwarderStep side target = some e' →
          ∃ a e', e.Winding a ∧ e.step side target a = some e' :=
        fun e' h => ⟨.forwarder, e', hf, h⟩
      obtain rfl : side = .server := by
        cases side with
        | server => rfl
        | client => exact absurd (he.tabled.client rfl).1 hf
      cases h : e.forwarder with
      | accepting => exact absurd h hf
      | fetching => exact hgo _ (by simp only [forwarderStep, h]; rfl)
      | allocating => exact hgo _ (by simp only [forwarderStep, h]; rfl)
      | adding n => exact hgo _ (by simp only [forwarderStep, h]; rfl)
      | opening n c => exact hsend .forwarder (by simp [sending, h])
      | spawning c => exact hgo _ (by simp only [forwarderStep, h]; rfl)
      | erasing n =>
        cases hl : e.conns.lookup n with
        | none => exact hgo _ (by simp only [forwarderStep, h, hl]; rfl)
        | some c => exact hgo _ (by simp only [forwarderStep, h, hl]; rfl)
      | storing c => exact hgo _ (by simp only [forwarderStep, h]; rfl)
  · rcases he.halted hdead with hr | hr | ⟨taken, hr⟩
    · exact ⟨.reader false, _, trivial, by simp only [Endpoint.step, readerStep, hr]; rfl⟩
    · exact absurd hr hreader
    · cases taken with
      | nil => exact ⟨.reader false, _, trivial, by simp only [Endpoint.step, readerStep, hr]; rfl⟩
      | cons c taken =>
        exact ⟨.reader false, _, trivial, by simp only [Endpoint.step, readerStep, hr]; rfl⟩

/-- Where its threads have come to their end, nothing is left of a session. -/
theorem Ending.nothing_left {side : Side} {e : Endpoint} (he : Ending side e) (hw : Wound side e) :
    e.conns = ∅ ∧ (∀ c < e.added, e.closed c = true) ∧ e.late = [] := by
  have hempty : ∀ n, e.conns.lookup n = none := by
    intro n
    rw [Option.eq_none_iff_forall_ne_some]
    intro c hl
    rcases he.swept (.inl hw.reader) hl with h | h
    · exact absurd (hw.forwarder.symm.trans h) (by simp)
    · exact absurd (hw.forwarder.symm.trans h) (by simp)
  refine ⟨eq_empty_of_lookup hempty, fun c hc => ?_, he.late⟩
  cases he.accounted.owned c hc with
  | closed h => exact h
  | tabled h => exact absurd h (by simp [hempty])
  | storing h => exact absurd (hw.reader.symm.trans h) (by simp)
  | taken h => exact absurd (hw.reader.symm.trans h) (by simp)
  | forwarder h => exact absurd (hw.forwarder.symm.trans h) (by simp)

end Endpoint

namespace Tunnel

/-- The invariants of both ends, to their end. -/
theorem ending_of_exec {target : Side → Text} {as : List (Side × EndpointAct)} {net : Tunnel}
    (h : exec (step target) {} as = some net) (side : Side) :
    Endpoint.Ending side (net.endpoint side) := by
  have hn : Polite net ∧ ∀ side, Endpoint.Ending side (net.endpoint side) := by
    refine exec_invariant (I := fun net => Polite net ∧
      ∀ side, Endpoint.Ending side (net.endpoint side)) (fun net a net' hI hs => ?_) ?_ h
    · obtain ⟨side, a⟩ := a
      refine ⟨hI.1.step hs, ?_⟩
      obtain ⟨e, hstep, rfl, -, hread⟩ := hI.1.steps hs
      exact forall_set ((hI.2 side).step (Endpoint.steps_of_step hstep) hread) hI.2
    · exact ⟨polite_init, fun side => endpoint_init side ▸ Endpoint.ending_fresh side⟩
  exact hn.2 side

/-- **A session that is shut down winds down.** From every state of a tunnel
in which one end is past `Shutdown`, whatever the order its threads go on
in: they send nothing more, they have a bounded number of steps left, none
of them is stuck before all have come to their end, and then the table is
empty, every connection is closed and nothing was written to a session that
was over. -/
theorem winds_down {target : Side → Text} {as : List (Side × EndpointAct)} {net : Tunnel}
    (h : exec (step target) {} as = some net) {side : Side}
    (hdead : (net.endpoint side).alive = false) :
    (∀ bs e, Along (Endpoint.step side (target side)) Endpoint.Winding (net.endpoint side) bs →
      exec (Endpoint.step side (target side)) (net.endpoint side) bs = some e →
      e.sent = (net.endpoint side).sent ∧ bs.length ≤ (net.endpoint side).leftover ∧
        ((∀ a, e.Winding a → e.step side (target side) a = none) → e.Wound side) ∧
        (e.Wound side → e.conns = ∅ ∧ (∀ c < e.added, e.closed c = true) ∧ e.late = [])) ∧
    ∃ bs e, Along (Endpoint.step side (target side)) Endpoint.Winding (net.endpoint side) bs ∧
      exec (Endpoint.step side (target side)) (net.endpoint side) bs = some e ∧ e.Wound side := by
  have hn := ending_of_exec h side
  have hstep : ∀ e a e', (Endpoint.Ending side e ∧ e.alive = false ∧
      e.sent = (net.endpoint side).sent) → e.Winding a → e.step side (target side) a = some e' →
      (Endpoint.Ending side e' ∧ e'.alive = false ∧ e'.sent = (net.endpoint side).sent) ∧
        e'.leftover < e.leftover := by
    rintro e a e' ⟨he, hdead, hsent⟩ hw hs
    obtain ⟨hdead', hsent', hlt⟩ := he.winds hdead hw hs
    refine ⟨⟨he.step (Endpoint.steps_of_step hs) ?_, hdead', hsent'.trans hsent⟩, hlt⟩
    -- nothing is read any more
    rintro f rfl -
    obtain ⟨hr, -⟩ := Endpoint.reader_of_read hs
    exact absurd ((he.halted hdead).ne hr) (by simp)
  have hinit : Endpoint.Ending side (net.endpoint side) ∧ (net.endpoint side).alive = false ∧
      (net.endpoint side).sent = (net.endpoint side).sent := ⟨hn, hdead, rfl⟩
  refine ⟨fun bs e hbs he => ?_, ?_⟩
  · have hle := exec_length_le hstep hinit hbs he
    obtain ⟨hend, hdead', hsent⟩ := exec_invariant_along
      (fun s a t hs ha ht => (hstep s a t hs ha ht).1) hinit hbs he
    refine ⟨hsent, by omega, fun hstuck => ?_, hend.nothing_left⟩
    by_contra hw
    obtain ⟨a, e', ha, hgo⟩ := hend.exists_winding (target side) hdead' hw
    exact absurd ((hstuck a ha).symm.trans hgo) (by simp)
  · exact exists_exec_of_progress hstep
      (fun e he hw => he.1.exists_winding (target side) he.2.1 hw) hinit

/-- The client's stream ends while its pump has bytes in hand. -/
def lostStream : List (Side × EndpointAct) :=
  helloStream.take 21 ++
    [(.client, .recv 0 [33]), (.client, .read none), (.client, .reader false)]

theorem winds_down_lostStream :
    ∃ net, exec (step fun _ => "edge-1".toList) {} lostStream = some net ∧
      net.client.alive = false ∧ net.client.pump 0 = .sending [33] ∧
      ∃ bs e, exec (Endpoint.step .client "edge-1".toList) net.client bs = some e ∧
        bs.length ≤ net.client.leftover ∧ e.sent = net.client.sent ∧ e.reader = .finished ∧
        e.conns = ∅ ∧ (∀ c < e.added, e.closed c = true) := by
  have hrun : (exec (step fun _ => "edge-1".toList) {} lostStream).any (fun net =>
      decide (net.client.alive = false ∧ net.client.pump 0 = .sending [33])) = true := by
    decide +kernel
  obtain ⟨net, hnet, hfacts⟩ := (Option.any_eq_true _ _).1 hrun
  obtain ⟨hdead, hpump⟩ := of_decide_eq_true hfacts
  obtain ⟨hall, bs, e, hbs, he, hw⟩ :=
    winds_down hnet (show (net.endpoint .client).alive = false from hdead)
  obtain ⟨hsent, hlen, -, hleft⟩ := hall bs e hbs he
  obtain ⟨hconns, hclosed, -⟩ := hleft hw
  exact ⟨net, hnet, hdead, hpump, bs, e, he, hlen, hsent, hw.reader, hconns, hclosed⟩

end Tunnel

end ZeroTouch
