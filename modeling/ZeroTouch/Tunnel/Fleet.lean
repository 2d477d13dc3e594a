import ZeroTouch.Tunnel.Bindings
/-!
# A server and its clients

Any number of clients dial one server, each under a name of its own, and
dial again when their tunnel has come to its end. The sessions share a
registry and a forwarder, and nothing else: seen from one of them, the
others are what changes the registry now and then (`session_of_step`). So
what holds of a session in any such surroundings holds of each of them.
-/

namespace ZeroTouch

namespace Registry

theorem ext_get {r r' : Registry} (h : ∀ t, r.get t = r'.get t) : r = r' := by
  cases r
  cases r'
  exact congrArg Registry.mk (funext h)

/-- The registry as session `s` has it, with itself as number zero. -/
def view (r : Registry) (s : ℕ) : Registry :=
  ⟨fun t => (r.get t).map fun s' => if s' = s then 0 else s' + 1⟩

/-- The registry that session `s` has as `r`. -/
def unview (r : Registry) (s : ℕ) : Registry :=
  ⟨fun t => (r.get t).map fun n => if n = 0 then s else n - 1⟩

theorem get_view (r : Registry) (s : ℕ) (t : Text) :
    (r.view s).get t = (r.get t).map fun s' => if s' = s then 0 else s' + 1 := rfl

theorem get_unview (r : Registry) (s : ℕ) (t : Text) :
    (r.unview s).get t = (r.get t).map fun n => if n = 0 then s else n - 1 := rfl

theorem get_view_eq_zero (r : Registry) (s : ℕ) (t : Text) :
    (r.view s).get t = some 0 ↔ r.get t = some s := by
  rw [get_view]
  cases r.get t with
  | none => simp
  | some s' => by_cases h : s' = s <;> simp [h]

theorem get_view_eq_succ (r : Registry) {s s' : ℕ} (hs : s' ≠ s) (t : Text) :
    (r.view s).get t = some (s' + 1) ↔ r.get t = some s' := by
  rw [get_view]
  cases r.get t with
  | none => simp
  | some s'' =>
    by_cases h : s'' = s
    · subst h
      simp [Ne.symm hs]
    · simp [h]

/-- No other session has the number that this one's would be. -/
theorem get_view_ne (r : Registry) (s : ℕ) (t : Text) : (r.view s).get t ≠ some (s + 1) := by
  rw [get_view]
  cases r.get t with
  | none => simp
  | some s' => by_cases h : s' = s <;> simp [h]

@[simp] theorem unview_view (r : Registry) (s : ℕ) : (r.view s).unview s = r := by
  refine ext_get fun t => ?_
  rw [get_unview, get_view]
  cases r.get t with
  | none => rfl
  | some s' => by_cases h : s' = s <;> simp [h]

theorem view_unview {r : Registry} {s : ℕ} (hr : ∀ t, r.get t ≠ some (s + 1)) :
    (r.unview s).view s = r := by
  refine ext_get fun t => ?_
  rw [get_view, get_unview]
  have hne := hr t
  cases h : r.get t with
  | none => rfl
  | some n =>
    cases n with
    | zero => simp
    | succ n =>
      have : n ≠ s := fun heq => hne (by rw [h, heq])
      simp [this]

theorem get_add_self (r : Registry) (t : Text) (s : ℕ) : (r.add t s).get t = some s :=
  Function.update_self ..

theorem get_add_of_ne (r : Registry) {t t' : Text} (h : t' ≠ t) (s : ℕ) :
    (r.add t s).get t' = r.get t' := Function.update_of_ne h ..

theorem unview_add (r : Registry) (s : ℕ) (t : Text) :
    ((r.view s).add t 0).unview s = r.add t s := by
  refine ext_get fun t' => ?_
  by_cases h : t' = t
  · subst h
    rw [get_unview, get_add_self, get_add_self]
    rfl
  · rw [get_unview, get_add_of_ne _ h, get_add_of_ne _ h, ← get_unview, unview_view]

theorem view_add (r : Registry) {s s' : ℕ} (hs : s' ≠ s) (t : Text) :
    (r.add t s').view s = (r.view s).add t (s' + 1) := by
  refine ext_get fun t' => ?_
  by_cases h : t' = t
  · subst h
    rw [get_view, get_add_self, get_add_self, Option.map_some, if_neg hs]
  · rw [get_view, get_add_of_ne _ h, get_add_of_ne _ h, get_view]

/-- What `Remove` leaves. -/
theorem get_remove_eq (r : Registry) (t t' : Text) (s : ℕ) :
    (r.remove t s).get t' = if t' = t ∧ r.get t = some s then none else r.get t' := by
  unfold remove
  by_cases hr : r.get t = some s
  · rw [if_pos hr]
    by_cases h : t' = t
    · subst h
      rw [if_pos ⟨rfl, hr⟩]
      exact Function.update_self ..
    · rw [if_neg fun hc => h hc.1]
      exact Function.update_of_ne h ..
  · rw [if_neg hr, if_neg fun hc => hr hc.2]

theorem unview_remove (r : Registry) (s : ℕ) (t : Text) :
    ((r.view s).remove t 0).unview s = r.remove t s := by
  refine ext_get fun t' => ?_
  simp only [get_unview, get_remove_eq, get_view_eq_zero]
  split
  · rfl
  · rw [← get_unview, unview_view]

theorem view_remove (r : Registry) {s s' : ℕ} (hs : s' ≠ s) (t : Text) :
    (r.remove t s').view s = (r.view s).remove t (s' + 1) := by
  refine ext_get fun t' => ?_
  rw [get_view, get_remove_eq, get_remove_eq]
  simp only [get_view_eq_succ r hs]
  split
  · rfl
  · rfl

end Registry

/-- **A server and its sessions.** Sessions are numbered; which client has
dialled which is fixed by a run's `dialer`. -/
structure Fleet where
  registry : Registry := {}
  /-- The session the forwarder has in hand, or is about to find. -/
  forwarding : Option ℕ := none
  dialed : List ℕ := []
  session : ℕ → Tunnel := fun _ => {}
  /-- A write of an end of a session has failed. -/
  failed : ℕ → Side → Bool := fun _ _ => false

/-- A step of the fleet. -/
inductive FleetAct
  /-- `RunTunnel` of a session's client dials. -/
  | dial (s : ℕ)
  /-- An end of a session takes a step. -/
  | run (s : ℕ) (side : Side) (a : EndpointAct)
  deriving DecidableEq, Repr

/-- The step is a write that fails. -/
def EndpointAct.failsWrite : EndpointAct → Bool
  | .transmit _ ok => !ok
  | _ => false

namespace Fleet

/-- A session, with the registry as it has it. -/
def net (f : Fleet) (s : ℕ) : Tunnel :=
  { f.session s with
    server := { (f.session s).server with registry := f.registry.view s } }

/-- A client dials again when its last tunnel has come to its end. -/
def MayDial (dialer : ℕ → ℕ) (f : Fleet) (s : ℕ) : Prop :=
  s ∉ f.dialed ∧ ∀ s' ∈ f.dialed, dialer s' = dialer s → (f.session s').client.reader = .finished

instance (dialer : ℕ → ℕ) (f : Fleet) (s : ℕ) : Decidable (f.MayDial dialer s) :=
  inferInstanceAs (Decidable (_ ∧ _))

/-- There is one forwarder, and what changes the registry is a session. -/
def allows (f : Fleet) (s : ℕ) : Side → EndpointAct → Bool
  | _, .otherAdd _ _ => false
  | _, .otherRemove _ _ => false
  | .server, .forwarder => f.forwarding = none ∨ f.forwarding = some s
  | _, _ => true

/-- The fleet after a step of session `s` that leads to `net'`. -/
def advance (f : Fleet) (s : ℕ) (side : Side) (a : EndpointAct) (net' : Tunnel) : Fleet where
  registry := net'.server.registry.unview s
  forwarding :=
    if side = .server ∧ a = .forwarder then
      if net'.server.forwarder = .accepting then none else some s
    else f.forwarding
  dialed := f.dialed
  session := Function.update f.session s net'
  failed := fun s' side' => f.failed s' side' || (decide (s' = s ∧ side' = side) && a.failsWrite)

/-- **One step.** `target` is the forwarder's, `name` gives each client's
own. -/
def step (target : Text) (name : ℕ → Text) (dialer : ℕ → ℕ) (f : Fleet) : FleetAct → Option Fleet
  | .dial s => if f.MayDial dialer s then some { f with dialed := s :: f.dialed } else none
  | .run s side a =>
    if s ∈ f.dialed ∧ f.allows s side a then
      ((f.net s).step (Tunnel.ends target (name (dialer s))) (side, a)).map (f.advance s side a)
    else none

/-- **A stream that has failed a write fails them all**, as gRPC has it. -/
def Persistent (f : Fleet) : FleetAct → Prop
  | .run s side (.transmit _ true) => f.failed s side = false
  | _ => True

instance (f : Fleet) (a : FleetAct) : Decidable (f.Persistent a) := by
  unfold Persistent
  split <;> infer_instance

/-! ## One session among others -/

/-- What the step of a session does to the registry they share. -/
theorem registry_of_step {target : Text} {name : ℕ → Text} {dialer : ℕ → ℕ} {f : Fleet} {s : ℕ}
    {side : Side} {a : EndpointAct} {net' : Tunnel} (ha : f.allows s side a)
    (h : (f.net s).step (Tunnel.ends target (name (dialer s))) (side, a) = some net') :
    net'.server.registry = f.registry.view s ∨
      ∃ t, net'.server.registry = (f.registry.view s).add t 0 ∨
        net'.server.registry = (f.registry.view s).remove t 0 := by
  simp only [Tunnel.step] at h
  split at h
  case isFalse => cases h
  case isTrue =>
    obtain ⟨e, he, rfl⟩ := Option.map_eq_some_iff.1 h
    cases side with
    | client => exact .inl rfl
    | server =>
      cases Endpoint.binds_of_step he with
      | same hreg => exact .inl hreg
      | added _ hreg _ => exact .inr ⟨_, .inl hreg⟩
      | removed hreg => exact .inr ⟨_, .inr hreg⟩
      | otherAdded => cases ha
      | otherRemoved => cases ha

/-- A session after a step of its own is where the step led. -/
theorem net_advance_self {f : Fleet} {s : ℕ} {side : Side} {a : EndpointAct} {net' : Tunnel}
    (hreg : ∀ t, net'.server.registry.get t ≠ some (s + 1)) :
    (f.advance s side a net').net s = net' := by
  have hsession : (f.advance s side a net').session s = net' := Function.update_self ..
  have hview : (f.advance s side a net').registry.view s = net'.server.registry :=
    Registry.view_unview hreg
  rw [net, hsession, hview]

/-- A session after a step of another, with the registry as it is now. -/
theorem net_advance_of_ne {f : Fleet} {s s' : ℕ} (hs : s ≠ s') {side : Side} {a : EndpointAct}
    {net' : Tunnel} {r : Registry} (hr : net'.server.registry.unview s' = r) :
    (f.advance s' side a net').net s =
      { f.session s with server := { (f.session s).server with registry := r.view s } } := by
  have hsession : (f.advance s' side a net').session s = f.session s := Function.update_of_ne hs ..
  have hreg : (f.advance s' side a net').registry = r := hr
  rw [net, hsession, hreg]

/-- **To one session the others are its surroundings**: what any step of the
fleet does to a session is a step of its own, or one of those in which the
registry is changed. -/
theorem session_of_step {target : Text} {name : ℕ → Text} {dialer : ℕ → ℕ} {f f' : Fleet}
    {a : FleetAct} (h : f.step target name dialer a = some f') (s : ℕ) :
    (f'.net s = f.net s ∧ f'.failed s = f.failed s) ∨
      ∃ side a', (f.net s).step (Tunnel.ends target (name (dialer s))) (side, a') =
        some (f'.net s) ∧
        ((a = .run s side a' ∧
            ∀ side', f'.failed s side' =
              (f.failed s side' || (decide (side' = side) && a'.failsWrite))) ∨
          ((∀ t ok, a' ≠ .transmit t ok) ∧ f'.failed s = f.failed s)) := by
  cases a with
  | dial s' =>
    simp only [step] at h
    split at h
    case isTrue =>
      obtain rfl := Option.some.inj h
      exact .inl ⟨rfl, rfl⟩
    case isFalse => cases h
  | run s' side a =>
    simp only [step] at h
    split at h
    case isFalse => cases h
    case isTrue hmay =>
      obtain ⟨net', hnet, rfl⟩ := Option.map_eq_some_iff.1 h
      have hreg := registry_of_step hmay.2 hnet
      by_cases hs : s = s'
      · subst hs
        have hself : ∀ t, net'.server.registry.get t ≠ some (s + 1) := by
          intro t ht
          have hview := f.registry.get_view_ne s
          rcases hreg with heq | ⟨t', heq | heq⟩
          · exact hview t (heq ▸ ht)
          · rcases (Registry.get_add ..).1 (heq ▸ ht) with ⟨-, h⟩ | ⟨-, h⟩
            · exact absurd h (Nat.succ_ne_zero s)
            · exact hview t h
          · exact hview t ((Registry.get_remove ..).1 (heq ▸ ht)).1
        refine .inr ⟨side, a, ?_, .inl ⟨rfl, fun side' => by simp [advance]⟩⟩
        rw [net_advance_self hself]
        exact hnet
      · have hfailed : (f.advance s' side a net').failed s = f.failed s := by
          funext side'
          simp [advance, hs]
        have hne : s' ≠ s := Ne.symm hs
        rcases hreg with heq | ⟨t, heq | heq⟩
        · refine .inl ⟨?_, hfailed⟩
          exact net_advance_of_ne hs (by rw [heq, Registry.unview_view])
        · refine .inr ⟨.server, .otherAdd t (s' + 1), ?_, .inr ⟨by simp, hfailed⟩⟩
          rw [net_advance_of_ne hs (by rw [heq, Registry.unview_add]), Registry.view_add _ hne]
          rfl
        · refine .inr ⟨.server, .otherRemove t (s' + 1), ?_, .inr ⟨by simp, hfailed⟩⟩
          rw [net_advance_of_ne hs (by rw [heq, Registry.unview_remove]), Registry.view_remove _ hne]
          rfl

/-- The invariants of every session. -/
def Routed (target : Text) (name : ℕ → Text) (dialer : ℕ → ℕ) (f : Fleet) : Prop :=
  ∀ s, Tunnel.Session target (name (dialer s)) (f.failed s .server) (f.net s)

theorem routed_init (target : Text) (name : ℕ → Text) (dialer : ℕ → ℕ) :
    Routed target name dialer {} := fun s => Tunnel.session_init target (name (dialer s))

/-- **Every step of the fleet keeps every session's invariants.** -/
theorem Routed.step {target : Text} {name : ℕ → Text} {dialer : ℕ → ℕ} {f f' : Fleet}
    {a : FleetAct} (hf : Routed target name dialer f) (ha : f.Persistent a)
    (h : f.step target name dialer a = some f') : Routed target name dialer f' := by
  intro s
  rcases session_of_step h s with ⟨hnet, hfailed⟩ | ⟨side, a', hstep, hcase⟩
  · rw [hnet, hfailed]
    exact hf s
  · rcases hcase with ⟨rfl, hfailed⟩ | ⟨hquiet, hfailed⟩
    · refine (hf s).step hstep (fun h => ?_) ?_ ?_
      · rw [hfailed] at h
        exact (Bool.or_eq_false_iff.1 h).1
      · rintro t rfl rfl
        simp [hfailed, EndpointAct.failsWrite]
      · rintro t rfl rfl
        exact ha
    · refine (hf s).step hstep (fun h => hfailed ▸ h) ?_ ?_
      · rintro t - rfl
        exact absurd rfl (hquiet t false)
      · rintro t - rfl
        exact absurd rfl (hquiet t true)

/-- **No stream is misrouted.** On every session, whatever the others and
the forwarder do: no `OPEN` is written before a `REGISTER` was processed;
the streams opened are `1, 2, 3, …` in order; and every `OPEN` a client
receives has the name the client has registered, so that it never finds a
mismatch. -/
theorem routed {target : Text} {name : ℕ → Text} {dialer : ℕ → ℕ} {as : List FleetAct} {f : Fleet}
    (hp : Along (step target name dialer) Persistent {} as)
    (h : exec (step target name dialer) {} as = some f) (s : ℕ) :
    ((∃ n t, .openStream n t ∈ (f.session s).server.sent) → (f.session s).server.Processed) ∧
      openIds (f.session s).server.sent =
        List.range' 1 (openIds (f.session s).server.sent).length ∧
      (∀ n t, .openStream n t ∈ (f.session s).client.received → t = name (dialer s)) ∧
      ∀ n t, (f.session s).client.reader = .handling (.openStream n t) →
        ¬ (t ≠ [] ∧ t ≠ name (dialer s)) := by
  have hs : Tunnel.Session target (name (dialer s)) (f.failed s .server) (f.net s) :=
    exec_invariant_along (fun _ _ _ hI ha hst => Routed.step hI ha hst)
      (routed_init target name dialer) hp h s
  have hnames : ∀ n t, .openStream n t ∈ (f.session s).client.received → t = name (dialer s) := by
    intro n t hmem
    obtain ⟨ht, hname, -⟩ := hs.served.opened n t ((hs.fifo .client).subset hmem)
    exact ht.trans hname
  refine ⟨?_, hs.numbered.ids, hnames, ?_⟩
  · rintro ⟨n, t, hmem⟩
    exact (hs.served.opened n t hmem).2.2
  · intro n t hr hne
    obtain ⟨before, hreceived⟩ := (hs.tabled .client).handling _ hr
    have hmem : .openStream n t ∈ (f.net s).client.received := by
      have : (f.net s).client.received = before ++ [.openStream n t] := hreceived
      simp [this]
    exact hne.2 (hnames n t hmem)

/-- A session comes up: its client registers and the server acknowledges. -/
def comesUp (s : ℕ) (t : Text) : List FleetAct :=
  [.dial s, .run s .client (.lock .reader), .run s .client (.transmit .reader true),
    .run s .server (.read (some (.register t))), .run s .server (.reader false),
    .run s .server (.reader false), .run s .server (.lock .reader),
    .run s .server (.transmit .reader true)]

/-- The forwarder opens a stream on a session. -/
def openedOn (s : ℕ) : List FleetAct :=
  [.run s .server .forwarder, .run s .server .forwarder, .run s .server .forwarder,
    .run s .server .forwarder, .run s .server (.lock .forwarder),
    .run s .server (.transmit .forwarder true), .run s .server .forwarder]

/-- Two clients come up, and the first is given two streams. -/
def twoClients : List FleetAct :=
  comesUp 0 "edge-1".toList ++ openedOn 0 ++ comesUp 1 "edge-2".toList ++ openedOn 0 ++
    [.run 0 .client (.read (some (.registerAck "edge-1".toList))), .run 0 .client (.reader false),
      .run 0 .client (.read (some (.openStream 1 "edge-1".toList)))]

/-- The names of two clients. -/
def twoNames (c : ℕ) : Text := if c = 0 then "edge-1".toList else "edge-2".toList

theorem routed_twoClients :
    Along (step "edge-1".toList twoNames id) Persistent {} twoClients ∧
      ∃ f, exec (step "edge-1".toList twoNames id) {} twoClients = some f ∧
        openIds (f.session 0).server.sent = [1, 2] ∧
        (f.session 0).client.reader = .handling (.openStream 1 "edge-1".toList) ∧
        (f.session 0).server.Processed ∧ ¬ ("edge-1".toList ≠ [] ∧ "edge-1".toList ≠ twoNames 0) := by
  have hp : Along (step "edge-1".toList twoNames id) Persistent {} twoClients := by
    decide +kernel
  have hrun : (exec (step "edge-1".toList twoNames id) {} twoClients).any (fun f =>
      decide (openIds (f.session 0).server.sent = [1, 2] ∧
        (f.session 0).client.reader = .handling (.openStream 1 "edge-1".toList) ∧
        .openStream 1 "edge-1".toList ∈ (f.session 0).server.sent)) = true := by
    decide +kernel
  obtain ⟨f, hf, hfacts⟩ := (Option.any_eq_true _ _).1 hrun
  obtain ⟨hids, hr, hmem⟩ := of_decide_eq_true hfacts
  obtain ⟨hproc, -, -, hmatch⟩ := routed hp hf 0
  exact ⟨hp, f, hf, hids, hr, hproc ⟨1, _, hmem⟩, hmatch 1 _ hr⟩

/-! ## One session's part in a run -/

/-- What session `s` does in a step of the fleet. -/
def actOf (s : ℕ) : FleetAct → Option (Side × EndpointAct)
  | .dial _ => none
  | .run s' side a => if s' = s then some (side, a) else none

/-- The step is the tunnel's own, and not the surroundings'. -/
def ownAct : Side × EndpointAct → Option (Side × EndpointAct)
  | (_, .otherAdd _ _) => none
  | (_, .otherRemove _ _) => none
  | a => some a

/-- What a session may do in a fleet is its own. -/
theorem ownAct_of_allows {f : Fleet} {s : ℕ} {side : Side} {a : EndpointAct}
    (h : f.allows s side a) : ownAct (side, a) = some (side, a) := by
  cases a with
  | otherAdd => cases h
  | otherRemove => cases h
  | _ => rfl

/-- A session's step leaves no entry under another's number. -/
theorem get_ne_of_step {target : Text} {name : ℕ → Text} {dialer : ℕ → ℕ} {f : Fleet} {s : ℕ}
    {side : Side} {a : EndpointAct} {net' : Tunnel} (ha : f.allows s side a)
    (h : (f.net s).step (Tunnel.ends target (name (dialer s))) (side, a) = some net') (t : Text) :
    net'.server.registry.get t ≠ some (s + 1) := by
  intro ht
  have hview := f.registry.get_view_ne s
  rcases registry_of_step ha h with heq | ⟨t', heq | heq⟩
  · exact hview t (heq ▸ ht)
  · rcases (Registry.get_add ..).1 (heq ▸ ht) with ⟨-, h⟩ | ⟨-, h⟩
    · exact absurd h (Nat.succ_ne_zero s)
    · exact hview t h
  · exact hview t ((Registry.get_remove ..).1 (heq ▸ ht)).1

/-- **A step of the fleet, as one session has it**: nothing, its own step,
or a change of the registry. -/
theorem step_projects {target : Text} {name : ℕ → Text} {dialer : ℕ → ℕ} {f f' : Fleet}
    {a : FleetAct} (h : f.step target name dialer a = some f') (s : ℕ) :
    ∃ bs, exec (Tunnel.step (Tunnel.ends target (name (dialer s)))) (f.net s) bs = some (f'.net s) ∧
      bs.filterMap ownAct = (actOf s a).toList := by
  cases a with
  | dial s' =>
    simp only [step] at h
    split at h
    case isTrue =>
      obtain rfl := Option.some.inj h
      exact ⟨[], rfl, rfl⟩
    case isFalse => cases h
  | run s' side a =>
    simp only [step] at h
    split at h
    case isFalse => cases h
    case isTrue hmay =>
      obtain ⟨net', hnet, rfl⟩ := Option.map_eq_some_iff.1 h
      by_cases hs : s = s'
      · subst hs
        refine ⟨[(side, a)], exec_cons.2 ⟨net', hnet, ?_⟩, ?_⟩
        · rw [net_advance_self (get_ne_of_step hmay.2 hnet), exec_nil]
        · simp [actOf, ownAct_of_allows hmay.2]
      · have hact : actOf s (.run s' side a) = none := if_neg (Ne.symm hs)
        have hne : s' ≠ s := Ne.symm hs
        rw [hact]
        rcases registry_of_step hmay.2 hnet with heq | ⟨t, heq | heq⟩
        · refine ⟨[], ?_, rfl⟩
          rw [net_advance_of_ne hs (by rw [heq, Registry.unview_view])]
          rfl
        · refine ⟨[(.server, .otherAdd t (s' + 1))], ?_, rfl⟩
          rw [net_advance_of_ne hs (by rw [heq, Registry.unview_add]), Registry.view_add _ hne]
          rfl
        · refine ⟨[(.server, .otherRemove t (s' + 1))], ?_, rfl⟩
          rw [net_advance_of_ne hs (by rw [heq, Registry.unview_remove]),
            Registry.view_remove _ hne]
          rfl

/-- **Among others a session does what it would do alone.** Whatever the
other sessions and the forwarder do, its part of a run is the run of one
tunnel: its own steps, in their order, with changes of the registry between
them. -/
theorem session_runs {target : Text} {name : ℕ → Text} {dialer : ℕ → ℕ} {as : List FleetAct}
    {f : Fleet} (h : exec (step target name dialer) {} as = some f) (s : ℕ) :
    ∃ bs, exec (Tunnel.step (Tunnel.ends target (name (dialer s)))) {} bs = some (f.net s) ∧
      bs.filterMap ownAct = as.filterMap (actOf s) := by
  have hstep : ∀ f a f', step target name dialer f a = some f' →
      ∃ bs, exec (Tunnel.step (Tunnel.ends target (name (dialer s)))) (f.net s) bs =
          some (f'.net s) ∧ bs.filterMap ownAct = (actOf s a).toList :=
    fun _ _ _ h => step_projects h s
  exact exec_projects hstep h

/-- The first of two clients, with its own steps only. -/
theorem session_runs_twoClients :
    ∃ f, exec (step "edge-1".toList twoNames id) {} twoClients = some f ∧
      ∃ bs, exec (Tunnel.step (Tunnel.ends "edge-1".toList "edge-1".toList)) {} bs =
          some (f.net 0) ∧ (bs.filterMap ownAct).length = 24 := by
  have hrun : (exec (step "edge-1".toList twoNames id) {} twoClients).isSome = true := by
    decide +kernel
  obtain ⟨f, hf⟩ := Option.isSome_iff_exists.1 hrun
  obtain ⟨bs, hbs, hlabel⟩ := session_runs hf 0
  exact ⟨f, hf, bs, hbs, by rw [hlabel]; decide +kernel⟩

end Fleet

end ZeroTouch
