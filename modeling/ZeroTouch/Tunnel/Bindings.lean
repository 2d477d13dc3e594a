import ZeroTouch.Tunnel.Streams
import ZeroTouch.Tunnel.Teardown
/-!
# Which streams a session is given

A server's forwarder opens a stream on the session it finds under its
target, and a session is found under the name its client has registered.
What the other sessions do to the registry in the meantime never puts this
one under another name, so the streams a client is asked to open are its
own, whatever the forwarder has had in hand since; and as long as no write
of the session fails, they are numbered without a gap.
-/

namespace ZeroTouch

/-- The streams opened among the frames, in order. -/
def openIds (fs : List Frame) : List ℕ :=
  fs.filterMap fun
    | .openStream n _ => some n
    | _ => none

@[simp] theorem openIds_append (fs gs : List Frame) : openIds (fs ++ gs) = openIds fs ++ openIds gs :=
  List.filterMap_append

/-- A frame that opens nothing. -/
theorem openIds_singleton {f : Frame} (h : ∀ n t, f ≠ .openStream n t) : openIds [f] = [] := by
  cases f with
  | openStream n t => exact absurd rfl (h n t)
  | _ => rfl

/-- The name the read loop is about to register. -/
def ReaderPc.registers : ReaderPc → Option Text
  | .handling (.register t) => some t
  | .removing t => some t
  | .adding t => some t
  | _ => none

namespace Endpoint

/-! ## The registry -/

/-- **What a step does to the registry.** -/
inductive Binds (e e' : Endpoint) : EndpointAct → Prop
  | same {a : EndpointAct} : e'.registry = e.registry → Binds e e' a
  | added {a : EndpointAct} {t : Text} : e.reader = .adding t →
      e'.registry = e.registry.add t 0 → e'.reader = .sending (.registerAck t) → Binds e e' a
  | removed {a : EndpointAct} {t : Text} : e'.registry = e.registry.remove t 0 → Binds e e' a
  | otherAdded {t : Text} {s : ℕ} : s ≠ 0 → e'.registry = e.registry.add t s →
      Binds e e' (.otherAdd t s)
  | otherRemoved {t : Text} {s : ℕ} : s ≠ 0 → e'.registry = e.registry.remove t s →
      Binds e e' (.otherRemove t s)

theorem Returns.alive_eq {target : Text} {e e' : Endpoint} {ok : Bool} {f : Frame} {t : Thread}
    (h : Returns target e ok f t e') : e'.alive = e.alive := by
  cases h <;> rfl

theorem Returns.registry_eq {target : Text} {e e' : Endpoint} {ok : Bool} {f : Frame} {t : Thread}
    (h : Returns target e ok f t e') : e'.registry = e.registry := by
  cases h <;> rfl

theorem registry_of_handle (side : Side) (target : Text) (e : Endpoint) (dialed : Bool)
    (f : Frame) : (e.handle side target dialed f).registry = e.registry := by
  cases f <;> simp only [handle]
  all_goals repeat' split
  all_goals rfl

theorem binds_of_readerStep {side : Side} {target : Text} {e e' : Endpoint} {dialed : Bool}
    {a : EndpointAct} (h : e.readerStep side target dialed = some e') : Binds e e' a := by
  simp only [readerStep] at h
  split at h
  case h_1 f hr => exact Option.some.inj h ▸ .same (registry_of_handle side target e dialed f)
  case h_2 t hr => exact Option.some.inj h ▸ .removed rfl
  case h_3 t hr => exact Option.some.inj h ▸ .added hr rfl rfl
  case h_7 hr => exact Option.some.inj h ▸ .removed rfl
  all_goals repeat' split at h
  all_goals first
    | exact Option.some.inj h ▸ .same rfl
    | cases h

theorem binds_of_step {side : Side} {target : Text} {e e' : Endpoint} {a : EndpointAct}
    (h : e.step side target a = some e') : Binds e e' a := by
  cases a with
  | reader dialed => exact binds_of_readerStep h
  | otherAdd t s =>
    simp only [step] at h
    split at h
    case isTrue => cases h
    case isFalse hs => exact Option.some.inj h ▸ .otherAdded hs rfl
  | otherRemove t s =>
    simp only [step] at h
    split at h
    case isTrue => cases h
    case isFalse hs => exact Option.some.inj h ▸ .otherRemoved hs rfl
  | lock t =>
    simp only [step] at h
    split at h
    case h_1 f hw hs =>
      obtain rfl := Option.some.inj h
      have hreg := (returns_of_sending hs false).registry_eq
      split
      · exact .same rfl
      · exact .same hreg
    case h_2 => cases h
  | transmit t ok =>
    simp only [step] at h
    split at h
    case h_1 f hs =>
      have hreg := (returns_of_sending hs ok).registry_eq
      split at h
      case isTrue => exact Option.some.inj h ▸ .same hreg
      case isFalse => cases h
    case h_2 => cases h
  | _ =>
    simp only [step, forwarderStep, pumpStep] at h
    repeat' split at h
    all_goals first
      | exact Option.some.inj h ▸ .same rfl
      | cases h

/-! ## The forwarder -/

theorem forwarder_of_handle (side : Side) (target : Text) (e : Endpoint) (dialed : Bool)
    (f : Frame) : (e.handle side target dialed f).forwarder = e.forwarder := by
  cases f <;> simp only [handle]
  all_goals repeat' split
  all_goals rfl

theorem forwarder_of_readerStep {side : Side} {target : Text} {e e' : Endpoint} {dialed : Bool}
    (h : e.readerStep side target dialed = some e') : e'.forwarder = e.forwarder := by
  simp only [readerStep] at h
  split at h
  case h_1 f hr => exact Option.some.inj h ▸ forwarder_of_handle side target e dialed f
  all_goals repeat' split at h
  all_goals first
    | exact Option.some.inj h ▸ rfl
    | cases h

/-- The forwarder has a session in hand. -/
def InHand : ForwarderPc → Prop
  | .accepting => False
  | .fetching => False
  | _ => True

/-- The forwarder takes this session in hand where it finds it under its
target. -/
theorem get_of_inHand {side : Side} {target : Text} {e e' : Endpoint} {a : EndpointAct}
    (h : e.step side target a = some e') (hf : ¬ InHand e.forwarder) (hf' : InHand e'.forwarder) :
    e.registry.get target = some 0 := by
  have hreturns : ∀ {ok f t e'}, Returns target e ok f t e' → e'.forwarder = e.forwarder := by
    intro ok f t e' hret
    cases hret with
    | forwarder ho => simp [ho, InHand] at hf
    | _ => rfl
  have hsame : e'.forwarder = e.forwarder → e.registry.get target = some 0 := by
    intro heq
    rw [heq] at hf'
    exact absurd hf' hf
  cases a with
  | reader dialed => exact hsame (forwarder_of_readerStep h)
  | forwarder =>
    simp only [step, forwarderStep] at h
    split at h
    case h_1 =>
      obtain rfl := Option.some.inj h
      exact hf'.elim
    case h_2 =>
      obtain rfl := Option.some.inj h
      by_cases hget : e.registry.get target = some 0
      · exact hget
      · simp [hget, InHand] at hf'
    case h_8 => cases h
    all_goals exact absurd trivial (by simp_all [InHand])
  | lock t =>
    simp only [step] at h
    split at h
    case h_1 f hw hs =>
      refine hsame ?_
      obtain rfl := Option.some.inj h
      split
      · rfl
      · exact hreturns (returns_of_sending hs false)
    case h_2 => cases h
  | transmit t ok =>
    simp only [step] at h
    split at h
    case h_1 f hs =>
      split at h
      case isTrue =>
        have hkept : (e.resume ok t).forwarder = e.forwarder := hreturns (returns_of_sending hs ok)
        exact hsame (Option.some.inj h ▸ hkept)
      case isFalse => cases h
    case h_2 => cases h
  | _ =>
    refine hsame ?_
    simp only [step, pumpStep] at h
    repeat' split at h
    all_goals first
      | exact Option.some.inj h ▸ rfl
      | cases h

/-! ## The name of a client -/

/-- **A client introduces itself once**, with its own name and before it
sends anything else. -/
structure Introduced (name : Text) (e : Endpoint) : Prop where
  registering : e.reader = .registering → e.sent = [] ∧ e.keepalive = .stopped ∧ e.added = 0
  sending : ∀ t, e.reader ≠ .sending (.register t)
  first : ∀ before t rest, e.sent = before ++ .register t :: rest → before = [] ∧ t = name

theorem introduced_fresh (name : Text) : Introduced name (fresh .client) := by
  constructor <;> simp [fresh]

/-- The read loop goes on, past its introduction. -/
theorem Introduced.setReader {name : Text} {e : Endpoint} (he : Introduced name e) {r : ReaderPc}
    (hr : r ≠ .registering) (hs : ∀ t, r ≠ .sending (.register t)) :
    Introduced name { e with reader := r } :=
  { he with registering := fun h => absurd h hr, sending := hs }

/-- A client that has not introduced itself does nothing else. -/
theorem Introduced.reader_ne {name : Text} {e : Endpoint} (he : Introduced name e)
    (ht : Tabled .client e) {c : ℕ} (hp : e.pump c ≠ .unborn) : e.reader ≠ .registering := by
  intro hr
  have hc := ht.lt_added hp
  rw [(he.registering hr).2.2] at hc
  exact absurd hc (Nat.not_lt_zero c)

theorem Introduced.moves {name : Text} {e : Endpoint} {r : ReaderPc} (he : Introduced name e)
    (hk : Known .client e) (h : ReaderMoves .client e r) : Introduced name { e with reader := r } := by
  cases h with
  | asked hr hr' => rcases hr' with rfl | rfl <;> exact he.setReader (by simp) (by simp)
  | @gone n reply hr hl =>
    cases reply with
    | none => exact he.setReader (by simp [afterClose]) (by simp [afterClose])
    | some f =>
      obtain rfl := hk.erasing n f hr
      exact he.setReader (by simp [afterClose]) (by simp [afterClose])
  | _ => exact he.setReader (by simp) (by simp)

/-- Sending something else. -/
theorem Introduced.snoc {name : Text} {e : Endpoint} (he : Introduced name e) {f : Frame}
    (hr : e.reader ≠ .registering) (hf : ∀ t, f ≠ .register t) :
    Introduced name { e with sent := e.sent ++ [f] } := by
  refine { he with registering := fun h => absurd h hr, first := fun before t rest heq => ?_ }
  rcases cases_snoc heq with ⟨-, h⟩ | ⟨rest', h⟩
  · exact absurd h (hf t)
  · exact he.first before t rest' h

theorem Introduced.returns {name : Text} {e e' : Endpoint} {ok : Bool} {f : Frame} {t : Thread}
    (he : Introduced name e) (ht : Tabled .client e) (h : Returns name e ok f t e') :
    Introduced name e' := by
  cases h with
  | register hr =>
    cases ok
    · exact { he.setReader (r := .aborting) (by simp) (by simp) with registering := by simp }
    · exact { he.setReader (r := .reading) (by simp) (by simp) with registering := by simp }
  | reader hr => exact he.setReader (by simp) (by simp)
  | forwarder hf => exact absurd (hf.symm.trans (ht.client rfl).1) (by simp)
  | keepalive hk =>
    refine { he with registering := fun hr => ?_ }
    exact absurd (hk.symm.trans (he.registering hr).2.1) (by simp)
  | data hp => exact { he with }
  | close hp => exact { he with }

theorem Introduced.sent {name : Text} {e e' : Endpoint} {f : Frame} {t : Thread}
    (he : Introduced name e) (ht : Tabled .client e) (h : Returns name e true f t e') :
    Introduced name { e' with sent := e.sent ++ [f] } := by
  cases h with
  | register hr =>
    -- the introduction
    have hnil := (he.registering hr).1
    refine ⟨by simp, by simp, fun before t rest heq => ?_⟩
    rw [hnil] at heq
    rcases cases_snoc heq with ⟨hb, ht⟩ | ⟨rest', h⟩
    · exact ⟨hb.symm, (Frame.register.inj ht).symm⟩
    · simp at h
  | reader hr =>
    refine (he.setReader (r := .reading) (by simp) (by simp)).snoc (by simp) ?_
    rintro t rfl
    exact he.sending t hr
  | forwarder hf => exact absurd (hf.symm.trans (ht.client rfl).1) (by simp)
  | keepalive hk =>
    have hr : e.reader ≠ .registering := fun hr =>
      absurd (hk.symm.trans (he.registering hr).2.1) (by simp)
    have hsnoc := he.snoc (f := .keepalive) hr (by simp)
    exact { hsnoc with registering := fun h => absurd h hr }
  | @data c bytes hp =>
    exact { he.snoc (f := .data (e.connId c) bytes) (he.reader_ne ht (c := c) (by simp [hp]))
      (by simp) with }
  | @close c why hp =>
    exact { he.snoc (f := .close (e.connId c) why) (he.reader_ne ht (c := c) (by simp [hp]))
      (by simp) with }

theorem Introduced.step {name : Text} {e e' : Endpoint} {a : EndpointAct} (he : Introduced name e)
    (ht : Tabled .client e) (hk : Known .client e) (h : Steps .client name e a e') :
    Introduced name e' := by
  cases h with
  | @read f hr => exact { he.setReader (r := .handling f) (by simp) (by simp) with }
  | moves reg t hm => exact { he.moves hk hm with }
  | dialed => exact ⟨by simp, by simp, he.first⟩
  | @write _ n c k rest hr =>
    exact { he.setReader (r := .writing n c (rest.drop k)) (by simp) (by simp) with }
  | @erase _ n c reply hr hl =>
    exact { he.setReader (r := .storing c reply) (by simp) (by simp) with }
  | @store _ c reply hr =>
    have hreply := (hk.storing c reply hr).2
    refine { he.setReader (r := afterClose reply) ?_ ?_ with }
    · cases reply <;> simp [afterClose]
    · cases reply with
      | none => simp [afterClose]
      | some f => simp [afterClose, hreply f rfl]
  | stop => exact { he.setReader (r := .swapping) (by simp) (by simp) with }
  | abort => exact { he.setReader (r := .finished) (by simp) (by simp) with }
  | swap => exact { he.setReader (r := .closing _) (by simp) (by simp) with }
  | @sweep _ c taken hr => exact { he.setReader (r := .closing taken) (by simp) (by simp) with }
  | forwarder hside => cases hside
  | allocate hside => cases hside
  | add hside => cases hside
  | spawn hside => cases hside
  | forwarderErase hside => cases hside
  | forwarderStore hside => cases hside
  | beat hw =>
    refine { he with registering := fun hr => ?_ }
    exact absurd (hw.symm.trans (he.registering hr).2.1) (by simp)
  | dropped hw ha hret => exact he.returns ht hret
  | transmit hw hret =>
    refine hret.transmitted (fun hret => ?_) fun hret => ?_
    · exact { he.sent ht hret with }
    · exact { he.returns ht hret with }
  | _ => exact { he with }

/-! ## The name of a session -/

/-- **The server has processed a `REGISTER`**: it has read one, and is past
it. -/
def Processed (e : Endpoint) : Prop :=
  (∃ t, .register t ∈ e.received) ∧ e.reader.registers = none

/-- The read loop comes to a `REGISTER` by reading one. -/
theorem Steps.registers {side : Side} {target : Text} {e e' : Endpoint} {a : EndpointAct}
    (h : Steps side target e a e') :
    e'.reader.registers = none ∨ e'.reader.registers = e.reader.registers ∨
      ∃ f, a = .read (some f) ∧ e'.reader = .handling f ∧ f ∈ e'.received := by
  cases h with
  | @read f hr => exact .inr (.inr ⟨f, rfl, rfl, by simp⟩)
  | moves reg t hm =>
    cases hm with
    | ended => exact .inl (by simp only; split <;> rfl)
    | asked hr hr' =>
      rw [hr]
      rcases hr' with rfl | rfl <;> exact .inr (.inl rfl)
    | removed hr =>
      rw [hr]
      exact .inr (.inl rfl)
    | @gone n reply => cases reply <;> exact .inl rfl
    | _ => exact .inl rfl
  | dialed => exact .inl rfl
  | write => exact .inl rfl
  | erase => exact .inl rfl
  | @store _ c reply => cases reply <;> exact .inl rfl
  | stop => exact .inl rfl
  | abort => exact .inl rfl
  | swap => exact .inl rfl
  | sweep => exact .inl rfl
  | dropped hw ha hret =>
    cases hret with
    | register => exact .inl rfl
    | reader => exact .inl rfl
    | _ => exact .inr (.inl rfl)
  | @transmit t f ok e' hw hret =>
    cases hret with
    | register => exact .inl (by cases ok <;> rfl)
    | reader => exact .inl rfl
    | _ => exact .inr (.inl rfl)
  | _ => exact .inr (.inl rfl)

/-- What is sent is what a thread returns from `Send` with. -/
theorem Steps.sends {side : Side} {target : Text} {e e' : Endpoint} {a : EndpointAct}
    (h : Steps side target e a e') :
    e'.sent = e.sent ∨ ∃ f t e'', Returns target e true f t e'' ∧ a = .transmit t true ∧
      e.writer = some t ∧ e'.sent = e.sent ++ [f] := by
  cases h with
  | dropped hw ha hret => exact .inl hret.frame.1
  | @transmit t f ok e'' hw hret =>
    cases ok with
    | false => exact .inl rfl
    | true => exact .inr ⟨f, t, e'', hret, rfl, hw, rfl⟩
  | _ => exact .inl rfl

/-- What was received stays received. -/
theorem Steps.received_subset {side : Side} {target : Text} {e e' : Endpoint} {a : EndpointAct}
    (h : Steps side target e a e') {f : Frame} (hf : f ∈ e.received) : f ∈ e'.received := by
  rcases h.record.2 with heq | ⟨g, -, heq⟩
  · exact heq ▸ hf
  · rw [heq]
    exact List.mem_append_left _ hf

/-- A session that is registered stays so, where nothing more is
registered. -/
theorem Processed.step {side : Side} {target : Text} {e e' : Endpoint} {a : EndpointAct}
    (he : Processed e) (h : Steps side target e a e')
    (hread : ∀ t, a = .read (some (.register t)) → e.received = []) : Processed e' := by
  obtain ⟨⟨t, ht⟩, hr⟩ := he
  refine ⟨⟨t, h.received_subset ht⟩, ?_⟩
  rcases h.registers with hnone | hsame | ⟨f, rfl, hf, -⟩
  · exact hnone
  · exact hsame.trans hr
  · rw [hf]
    cases f with
    | register t' =>
      rw [hread t' rfl] at ht
      cases ht
    | _ => rfl

/-- **A session is known under the name of its client**, and the forwarder
opens streams on it under that name. -/
structure Served (target name : Text) (e : Endpoint) : Prop where
  asked : ∀ t, e.reader.registers = some t → t = name ∧ .register t ∈ e.received
  bound : ∀ t, e.registry.get t = some 0 → t = name ∧ e.Processed
  inHand : InHand e.forwarder → target = name ∧ e.Processed
  opened : ∀ n t, .openStream n t ∈ e.sent → t = target ∧ target = name ∧ e.Processed

theorem served_fresh (target name : Text) : Served target name (fresh .server) := by
  constructor <;> simp [fresh, ReaderPc.registers, Registry.get, InHand]

/-- The `OPEN` a thread sends is the forwarder's. -/
theorem Returns.openStream {target : Text} {e e' : Endpoint} {ok : Bool} {n : ℕ} {t' : Text}
    {t : Thread} (h : Returns target e ok (.openStream n t') t e') (hp : Pumped e) :
    t' = target ∧ ∃ c, e.forwarder = .opening n c := by
  cases h with
  | reader hr => exact absurd (hp.sending _ hr) (by simp [Frame.Plain])
  | forwarder hf => exact ⟨rfl, _, hf⟩

/-- **Every step of a server keeps its session's name.** -/
theorem Served.step {target name : Text} {e e' : Endpoint} {a : EndpointAct}
    (he : Served target name e) (hp : Pumped e) (h : e.step .server target a = some e')
    (hread : ∀ t, a = .read (some (.register t)) → e.received = [] ∧ t = name) :
    Served target name e' := by
  have hsteps := steps_of_step h
  have hproc : e.Processed → e'.Processed := fun h => h.step hsteps fun t ha => (hread t ha).1
  refine ⟨fun t ht => ?_, fun t ht => ?_, fun hin => ?_, fun n t hmem => ?_⟩
  · rcases hsteps.registers with hnone | hsame | ⟨f, rfl, hf, hmem⟩
    · exact absurd (hnone.symm.trans ht) (by simp)
    · obtain ⟨hname, hmem⟩ := he.asked t (hsame.symm.trans ht)
      exact ⟨hname, hsteps.received_subset hmem⟩
    · rw [hf] at ht
      cases f with
      | register t' =>
        obtain rfl : t' = t := Option.some.inj ht
        exact ⟨(hread t' rfl).2, hmem⟩
      | _ => cases ht
  · have hold : e.registry.get t = some 0 → t = name ∧ e'.Processed := fun h =>
      ⟨(he.bound t h).1, hproc (he.bound t h).2⟩
    cases binds_of_step h with
    | same hreg => exact hold (hreg ▸ ht)
    | @added _ t' hr hreg hr' =>
      -- the read loop is past the `REGISTER` it had in hand
      obtain ⟨hname, hmem⟩ := he.asked t' (by rw [hr]; rfl)
      rcases (Registry.get_add ..).1 (hreg ▸ ht) with ⟨rfl, -⟩ | ⟨-, h⟩
      · exact ⟨hname, ⟨t, hsteps.received_subset hmem⟩, by rw [hr']; rfl⟩
      · exact hold h
    | removed hreg => exact hold ((Registry.get_remove ..).1 (hreg ▸ ht)).1
    | otherAdded hs hreg =>
      rcases (Registry.get_add ..).1 (hreg ▸ ht) with ⟨-, h⟩ | ⟨-, h⟩
      · exact absurd h.symm hs
      · exact hold h
    | otherRemoved hs hreg => exact hold ((Registry.get_remove ..).1 (hreg ▸ ht)).1
  · by_cases hin' : InHand e.forwarder
    · exact ⟨(he.inHand hin').1, hproc (he.inHand hin').2⟩
    · obtain ⟨hname, hdone⟩ := he.bound target (get_of_inHand h hin' hin)
      exact ⟨hname, hproc hdone⟩
  · rcases hsteps.sends with heq | ⟨f, t', e'', hret, -, -, heq⟩
    · obtain ⟨ht, hname, hdone⟩ := he.opened n t (heq ▸ hmem)
      exact ⟨ht, hname, hproc hdone⟩
    · rw [heq] at hmem
      rcases List.mem_append.1 hmem with hmem | hmem
      · obtain ⟨ht, hname, hdone⟩ := he.opened n t hmem
        exact ⟨ht, hname, hproc hdone⟩
      · obtain rfl := List.mem_singleton.1 hmem
        obtain ⟨ht, c, hf⟩ := hret.openStream hp
        obtain ⟨hname, hdone⟩ := he.inHand (by rw [hf]; trivial)
        exact ⟨ht, hname, hproc hdone⟩

/-! ## The numbers of streams -/

/-- The numbers the forwarder has taken, where `k` streams are open. -/
def Next (k : ℕ) (e : Endpoint) : Prop :=
  match e.forwarder with
  | .adding n => n = k + 1 ∧ e.nextId = k + 2
  | .opening n _ => n = k + 1 ∧ e.nextId = k + 2
  | .erasing _ => False
  | .storing _ => False
  | _ => e.nextId = k + 1

/-- **The streams of a session are numbered in order**, and as long as no
write has `failed`, the next number is the next stream's. -/
structure Numbered (failed : Bool) (e : Endpoint) : Prop where
  ids : openIds e.sent = List.range' 1 (openIds e.sent).length
  next : failed = false → e.alive = true → e.Next (openIds e.sent).length

theorem numbered_fresh : Numbered false (fresh .server) := by
  constructor <;> simp [fresh, openIds, Next]

/-- The return of a thread from `Send`, with its frame sent. -/
theorem Numbered.sent {target : Text} {e e' : Endpoint} {f : Frame} {t : Thread}
    (he : Numbered false e) (ha : e.alive = true) (hp : Pumped e)
    (h : Returns target e true f t e') : Numbered false { e' with sent := e.sent ++ [f] } := by
  have hnext := he.next rfl ha
  by_cases hopen : ∃ n t', f = .openStream n t'
  · obtain ⟨n, t', rfl⟩ := hopen
    obtain ⟨-, c, hf⟩ := h.openStream hp
    unfold Next at hnext
    rw [hf] at hnext
    obtain ⟨rfl, hid⟩ := hnext
    cases h with
    | reader hr => exact absurd (hp.sending _ hr) (by simp [Frame.Plain])
    | @forwarder _ c hf =>
      have hone : openIds [.openStream ((openIds e.sent).length + 1) target] =
          [(openIds e.sent).length + 1] := rfl
      have hlen : (openIds (e.sent ++ [.openStream ((openIds e.sent).length + 1) target])).length =
          (openIds e.sent).length + 1 := by
        rw [openIds_append, hone, List.length_append, List.length_singleton]
      refine ⟨?_, fun _ _ => ?_⟩
      · rw [hlen, openIds_append, hone, List.range'_1_concat, ← he.ids, Nat.add_comm 1]
      · rw [hlen]
        exact hid
  · have hnil : openIds [f] = [] := openIds_singleton fun n t' heq => hopen ⟨n, t', heq⟩
    have hids : openIds (e.sent ++ [f]) = openIds e.sent := by
      rw [openIds_append, hnil, List.append_nil]
    refine ⟨by rw [hids]; exact he.ids, fun _ _ => ?_⟩
    rw [hids]
    cases h with
    | @forwarder n c hf => exact absurd ⟨n, target, rfl⟩ hopen
    | _ => exact hnext

theorem Numbered.step {target : Text} {e e' : Endpoint} {a : EndpointAct} {failed failed' : Bool}
    (he : Numbered failed e) (ht : Torn e) (hp : Pumped e) (h : Steps .server target e a e')
    (hmono : failed' = false → failed = false)
    (hfail : ∀ t, a = .transmit t false → failed' = true)
    (hok : ∀ t, a = .transmit t true → failed = false) : Numbered failed' e' := by
  have hnext : failed' = false → e.alive = true → e.Next (openIds e.sent).length :=
    fun hf => he.next (hmono hf)
  -- the forwarder takes a stream out again only where nothing can be sent
  have hdead : (∃ n, e.forwarder = .erasing n) ∨ (∃ c, e.forwarder = .storing c) →
      failed' = false → ¬ e.alive = true := by
    rintro hf hfailed halive
    have hno := hnext hfailed halive
    unfold Next at hno
    rcases hf with ⟨n, hf⟩ | ⟨c, hf⟩ <;> simp [hf] at hno
  cases h with
  | stop => exact ⟨he.ids, by simp⟩
  | abort => exact ⟨he.ids, by simp⟩
  | forwarder _ hm =>
    refine ⟨he.ids, fun hf ha => ?_⟩
    have hn := hnext hf ha
    cases hm with
    | accepted hfw =>
      unfold Next at hn ⊢
      rw [hfw] at hn
      exact hn
    | fetched hfw hpc =>
      unfold Next at hn ⊢
      rw [hfw] at hn
      rcases hpc with rfl | rfl <;> exact hn
    | gone hfw => exact absurd ha (hdead (.inl ⟨_, hfw⟩) hf)
  | allocate _ hfw =>
    refine ⟨he.ids, fun hf ha => ?_⟩
    have hn := hnext hf ha
    unfold Next at hn
    rw [hfw] at hn
    exact ⟨hn, by rw [hn]⟩
  | add _ hfw =>
    refine ⟨he.ids, fun hf ha => ?_⟩
    have hn := hnext hf ha
    unfold Next at hn
    rw [hfw] at hn
    exact hn
  | spawn _ hfw =>
    refine ⟨he.ids, fun hf ha => ?_⟩
    have hn := hnext hf ha
    unfold Next at hn
    rw [hfw] at hn
    exact hn
  | forwarderErase _ hfw =>
    exact ⟨he.ids, fun hf ha => absurd ha (hdead (.inl ⟨_, hfw⟩) hf)⟩
  | forwarderStore _ hfw =>
    exact ⟨he.ids, fun hf ha => absurd ha (hdead (.inr ⟨_, hfw⟩) hf)⟩
  | dialed hside => cases hside
  | dropped hw ha hret =>
    refine ⟨hret.frame.1 ▸ he.ids, fun _ halive => ?_⟩
    exact absurd (hret.alive_eq.symm.trans halive) (by simp [ha])
  | @transmit t f ok e' hw hret =>
    cases ok with
    | true =>
      obtain rfl := hok t rfl
      have hsent := he.sent (ht.writer t hw) hp hret
      exact ⟨hsent.ids, fun _ => hsent.next rfl⟩
    | false =>
      refine ⟨he.ids, fun hf => ?_⟩
      exact absurd (hfail t rfl) (by simp [hf])
  | _ => exact ⟨he.ids, hnext⟩

end Endpoint

namespace Tunnel

/-! ## One session -/

/-- The forwarder's target, and the name of the client. -/
def ends (target name : Text) : Side → Text
  | .server => target
  | .client => name

/-- **The invariants of a session** whose forwarder serves `target` and
whose client has `name`. -/
structure Session (target name : Text) (failed : Bool) (net : Tunnel) : Prop
    extends Polite net where
  torn : Endpoint.Torn net.server
  introduced : Endpoint.Introduced name net.client
  served : Endpoint.Served target name net.server
  numbered : Endpoint.Numbered failed net.server

theorem session_init (target name : Text) : Session target name false {} where
  toPolite := polite_init
  torn := Endpoint.torn_fresh
  introduced := Endpoint.introduced_fresh name
  served := Endpoint.served_fresh target name
  numbered := Endpoint.numbered_fresh

/-- The only `REGISTER` a server reads is the client's introduction. -/
theorem Session.first {target name : Text} {failed : Bool} {net : Tunnel}
    (hn : Session target name failed net) {t : Text}
    (h : net.delivers .server (.read (some (.register t)))) :
    net.server.received = [] ∧ t = name := by
  obtain ⟨rest, hsplit⟩ := hn.split h
  exact hn.introduced.first _ t rest hsplit

/-- **Every step of either end keeps a session's invariants**, where no
write of the server succeeds after one has failed. -/
theorem Session.step {target name : Text} {failed failed' : Bool} {net net' : Tunnel} {side : Side}
    {a : EndpointAct} (hn : Session target name failed net)
    (h : net.step (ends target name) (side, a) = some net')
    (hmono : failed' = false → failed = false)
    (hfail : ∀ t, side = .server → a = .transmit t false → failed' = true)
    (hok : ∀ t, side = .server → a = .transmit t true → failed = false) :
    Session target name failed' net' := by
  have hpolite := hn.toPolite.step h
  simp only [Tunnel.step] at h
  split at h
  case isFalse => cases h
  case isTrue hdel =>
    obtain ⟨e, he, rfl⟩ := Option.map_eq_some_iff.1 h
    have hsteps := Endpoint.steps_of_step he
    cases side with
    | server =>
      refine { hpolite with torn := ?_, introduced := hn.introduced, served := ?_, numbered := ?_ }
      · exact hn.torn.step (hn.tabled .server) hsteps
      · refine hn.served.step (hn.pumped .server) he ?_
        rintro t rfl
        exact hn.first hdel
      · exact hn.numbered.step hn.torn (hn.pumped .server) hsteps hmono (fun t => hfail t rfl)
          fun t => hok t rfl
    | client =>
      refine { hpolite with
        torn := hn.torn, introduced := ?_, served := hn.served, numbered := ?_ }
      · exact hn.introduced.step (hn.tabled .client) (hn.known .client) hsteps
      · exact ⟨hn.numbered.ids, fun hf => hn.numbered.next (hmono hf)⟩

end Tunnel

end ZeroTouch
