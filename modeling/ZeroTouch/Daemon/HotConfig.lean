import Mathlib.Data.List.Nodup
import Mathlib.Logic.Function.Basic
import ZeroTouch.Common.Run
import ZeroTouch.Common.Text
/-!
# Configuration applied while running

`ZeroTouchClient`'s configuration, as a system of steps: the operator
writes a `zerotouch.*` key, a change queues an event once the watch is
registered, the listener thread turns events into the flag `m_cfg_dirty`,
and the reactor thread takes the flag and reads the keys again, one by
one. `run` reads them a first time before it registers the watch.

A change is pending until the keys are read again, or it is applied:
`UpToDate` says what has been applied at each point, key by key. A key
that changes after the first read of it and before the watch is reported
by no event, and the daemon keeps the old setting until some later change.
-/

namespace ZeroTouch

/-- A key of `kCfgKeys`, in the order `load_config_from_ds` reads them. -/
inductive ConfigKey
  /-- `zerotouch.enabled`. -/
  | enabled
  /-- `zerotouch.gnmi.port`. -/
  | gnmiPort
  /-- `zerotouch.session.ttl.sec`. -/
  | sessionTtlSec
  /-- `zerotouch.lockout.failures`. -/
  | lockoutFailures
  /-- `zerotouch.lockout.sec`. -/
  | lockoutSec
  /-- `zerotouch.allowed.numbers`. -/
  | allowedNumbers
  deriving DecidableEq, Repr

/-- The data store's conversions of a value, each of which may fail. -/
structure DsConversions (V : Type) where
  toText : V → Option Text
  toInt32 : V → Option Int
  toBool : V → Option Bool

namespace DsConversions

variable {V : Type} (C : DsConversions V)

/-- `get_str`. -/
def getStr (v : Option V) : Text := (v.bind C.toText).getD []

/-- `get_u32`: a number that is not positive counts as none. -/
def getU32 (v : Option V) (dflt : ℕ) : ℕ :=
  match v.bind C.toInt32 with
  | some n => if 0 < n then n.toNat else dflt
  | none => dflt

/-- `get_bool`. -/
def getBool (v : Option V) (dflt : Bool) : Bool := (v.bind C.toBool).getD dflt

end DsConversions

/-- `smsctl::Config`. A load assigns every field before it hands it on. -/
structure SessionConfig where
  sessionTtlSec : ℕ := 0
  lockoutFailures : ℕ := 0
  lockoutSec : ℕ := 0
  allowedNumbers : List Text := []
  deriving DecidableEq, Repr

/-- **The applied configuration**: `m_enabled`, `m_gnmi_port`, the port of
`m_sink`, and the configuration of `m_sessions`. -/
structure AppliedConfig where
  enabled : Bool := false
  gnmiPort : ℕ := 50051
  sinkPort : ℕ := 50051
  sessions : SessionConfig := {}
  deriving DecidableEq, Repr

section Load

variable {V : Type} (C : DsConversions V)

/-- One read of `load_config_from_ds`, with what it assigns. The switch
and the port are in force at once, the rest is collected in `c`. -/
def readKey (k : ConfigKey) (v : Option V) (p : AppliedConfig × SessionConfig) :
    AppliedConfig × SessionConfig :=
  match k with
  | .enabled => ({ p.1 with enabled := C.getBool v false }, p.2)
  | .gnmiPort =>
    let port := C.getU32 v 50051 % 65536
    ({ p.1 with gnmiPort := port, sinkPort := port }, p.2)
  | .sessionTtlSec => (p.1, { p.2 with sessionTtlSec := C.getU32 v 600 })
  | .lockoutFailures => (p.1, { p.2 with lockoutFailures := C.getU32 v 5 })
  | .lockoutSec => (p.1, { p.2 with lockoutSec := C.getU32 v 900 })
  | .allowedNumbers => (p.1, { p.2 with allowedNumbers := splitCsv (C.getStr v) })

/-- The order of the reads. -/
def loadOrder : List ConfigKey :=
  [.enabled, .gnmiPort, .sessionTtlSec, .lockoutFailures, .lockoutSec, .allowedNumbers]

/-- A list of reads, all of one store. -/
def readAll (store : ConfigKey → Option V) (ks : List ConfigKey)
    (p : AppliedConfig × SessionConfig) : AppliedConfig × SessionConfig :=
  ks.foldl (fun p k => readKey C k (store k) p) p

/-- **`load_config_from_ds`**, with no write in between. -/
def loadConfigFromDs (store : ConfigKey → Option V) (a : AppliedConfig) : AppliedConfig :=
  let p := readAll C store loadOrder (a, {})
  { p.1 with sessions := p.2 }

variable {C}

/-- Reads that have the same effect one by one have the same effect. -/
theorem readAll_congr {store store' : ConfigKey → Option V} {ks : List ConfigKey}
    (h : ∀ k ∈ ks, readKey C k (store k) = readKey C k (store' k))
    (p : AppliedConfig × SessionConfig) : readAll C store ks p = readAll C store' ks p := by
  unfold readAll
  refine List.foldl_ext _ _ _ fun q k hk => ?_
  rw [h k hk]

theorem readAll_concat (store : ConfigKey → Option V) (ks : List ConfigKey) (k : ConfigKey)
    (p : AppliedConfig × SessionConfig) :
    readAll C store (ks ++ [k]) p = readKey C k (store k) (readAll C store ks p) :=
  List.foldl_concat ..

/-- A load assigns everything, so what was applied before it is gone. -/
theorem loadConfigFromDs_eq (store : ConfigKey → Option V) (a a' : AppliedConfig) :
    loadConfigFromDs C store a = loadConfigFromDs C store a' := rfl

/-- A read assigns the same whatever was there, so one trial tells whether
two values read the same. -/
instance decidableReadKey (k : ConfigKey) (v v' : Option V) :
    Decidable (readKey C k v = readKey C k v') :=
  decidable_of_iff (readKey C k v ({}, {}) = readKey C k v' ({}, {})) <| by
    constructor
    · intro h
      funext p
      cases k <;> simp_all [readKey]
    · intro h
      rw [h]

end Load

/-! ## The daemon -/

/-- Where the thread that runs the daemon is. -/
inductive RunPc
  /-- Before the first load. -/
  | fresh
  /-- In `load_config_from_ds`, with the keys still to be read and what is
  collected: the first load, or one of `handle_exception`. -/
  | loading (first : Bool) (todo : List ConfigKey) (c : SessionConfig)
  /-- In `run`, before `m_bridge->start()`. -/
  | loaded
  /-- In `run`, before the watch. -/
  | bridged
  /-- In the reactor's loop. -/
  | idle
  deriving DecidableEq, Repr

/-- The load under way has not read the key yet, or has not begun. -/
def RunPc.Unread (k : ConfigKey) : RunPc → Prop
  | .fresh => True
  | .loading _ todo _ => k ∈ todo
  | .loaded | .bridged | .idle => False

instance decidableUnread (k : ConfigKey) : ∀ pc : RunPc, Decidable (pc.Unread k)
  | .fresh => inferInstanceAs (Decidable True)
  | .loading _ todo _ => inferInstanceAs (Decidable (k ∈ todo))
  | .loaded | .bridged | .idle => inferInstanceAs (Decidable False)

/-- **The daemon and the store it is configured from.** -/
structure ZeroTouchClient (V : Type) where
  store : ConfigKey → Option V
  watching : Bool := false
  /-- Events queued and not yet called back. -/
  events : ℕ := 0
  dirty : Bool := false
  pc : RunPc := .fresh
  applied : AppliedConfig := {}

/-- A step of the daemon or of an operator. -/
inductive ConfigAct (V : Type)
  /-- An operator writes a key. -/
  | write (k : ConfigKey) (v : V)
  /-- `run` enters `load_config_from_ds`. -/
  | load
  /-- The next read of a load. -/
  | read
  /-- The end of a load: `m_sessions.set_config`. -/
  | setConfig
  /-- `m_bridge->start()`. -/
  | startBridge
  /-- `m_ds.watch`, and the rest of `run` up to the reactor's loop. -/
  | watch
  /-- The listener thread calls back for an event. -/
  | callback
  /-- `handle_exception`, up to the load. -/
  | wake

namespace ZeroTouchClient

variable {V : Type} [DecidableEq V] (C : DsConversions V)

/-- One step. The watch reports a write that changes the value. -/
def step (s : ZeroTouchClient V) : ConfigAct V → Option (ZeroTouchClient V)
  | .write k v =>
    let events := if s.watching ∧ s.store k ≠ some v then s.events + 1 else s.events
    some { s with store := Function.update s.store k (some v), events := events }
  | .load =>
    match s.pc with
    | .fresh => some { s with pc := .loading true loadOrder {} }
    | _ => none
  | .read =>
    match s.pc with
    | .loading first (k :: todo) c =>
      let p := readKey C k (s.store k) (s.applied, c)
      some { s with applied := p.1, pc := .loading first todo p.2 }
    | _ => none
  | .setConfig =>
    match s.pc with
    | .loading first [] c =>
      some { s with
        applied := { s.applied with sessions := c }, pc := if first then .loaded else .idle }
    | _ => none
  | .startBridge =>
    match s.pc with
    | .loaded => some { s with pc := .bridged }
    | _ => none
  | .watch =>
    match s.pc with
    | .bridged => some { s with pc := .idle, watching := true }
    | _ => none
  | .callback =>
    match s.events with
    | 0 => none
    | events + 1 => some { s with events := events, dirty := true }
  | .wake =>
    -- the flag is taken under the lock, and the load comes after it
    match s.pc with
    | .idle =>
      some { s with pc := if s.dirty then .loading false loadOrder {} else .idle, dirty := false }
    | _ => none

/-- The daemon before `run`, with the store as it is. -/
def fresh (store : ConfigKey → Option V) : ZeroTouchClient V := { store := store }

/-- **What a step can do.** -/
inductive Steps (s : ZeroTouchClient V) : ConfigAct V → ZeroTouchClient V → Prop
  | changed (k : ConfigKey) (v : V) : s.watching = true → s.store k ≠ some v →
      Steps s (.write k v)
        { s with store := Function.update s.store k (some v), events := s.events + 1 }
  | unheard (k : ConfigKey) (v : V) : s.watching = false ∨ s.store k = some v →
      Steps s (.write k v) { s with store := Function.update s.store k (some v) }
  | load : s.pc = .fresh → Steps s .load { s with pc := .loading true loadOrder {} }
  | read {first : Bool} {k : ConfigKey} {todo : List ConfigKey} {c : SessionConfig} :
      s.pc = .loading first (k :: todo) c →
      Steps s .read { s with
        applied := (readKey C k (s.store k) (s.applied, c)).1
        pc := .loading first todo (readKey C k (s.store k) (s.applied, c)).2 }
  | setConfig {first : Bool} {c : SessionConfig} : s.pc = .loading first [] c →
      Steps s .setConfig { s with
        applied := { s.applied with sessions := c }
        pc := if first then .loaded else .idle }
  | startBridge : s.pc = .loaded → Steps s .startBridge { s with pc := .bridged }
  | watch : s.pc = .bridged → Steps s .watch { s with pc := .idle, watching := true }
  | callback {events : ℕ} : s.events = events + 1 →
      Steps s .callback { s with events := events, dirty := true }
  | wake : s.pc = .idle → s.dirty = true →
      Steps s .wake { s with pc := .loading false loadOrder {}, dirty := false }
  | unmoved : s.pc = .idle → s.dirty = false → Steps s .wake s

variable {C}

theorem steps_of_step {s t : ZeroTouchClient V} {a : ConfigAct V} (h : s.step C a = some t) :
    Steps C s a t := by
  cases a with
  | write k v =>
    simp only [step] at h
    by_cases hw : s.watching = true ∧ s.store k ≠ some v
    · rw [if_pos hw] at h
      exact Option.some.inj h ▸ .changed k v hw.1 hw.2
    · rw [if_neg hw] at h
      refine Option.some.inj h ▸ .unheard k v ?_
      by_cases hwatch : s.watching = true
      · exact .inr (not_not.1 fun hne => hw ⟨hwatch, hne⟩)
      · exact .inl (by simpa using hwatch)
  | load =>
    simp only [step] at h
    split at h
    case h_1 hpc => exact Option.some.inj h ▸ .load hpc
    case h_2 => cases h
  | read =>
    simp only [step] at h
    split at h
    case h_1 hpc => exact Option.some.inj h ▸ .read hpc
    case h_2 => cases h
  | setConfig =>
    simp only [step] at h
    split at h
    case h_1 hpc => exact Option.some.inj h ▸ .setConfig hpc
    case h_2 => cases h
  | startBridge =>
    simp only [step] at h
    split at h
    case h_1 hpc => exact Option.some.inj h ▸ .startBridge hpc
    case h_2 => cases h
  | watch =>
    simp only [step] at h
    split at h
    case h_1 hpc => exact Option.some.inj h ▸ .watch hpc
    case h_2 => cases h
  | callback =>
    simp only [step] at h
    split at h
    case h_1 => cases h
    case h_2 n hn => exact Option.some.inj h ▸ .callback hn
  | wake =>
    simp only [step] at h
    split at h
    case h_1 hpc =>
      by_cases hd : s.dirty = true
      · rw [if_pos hd] at h
        exact Option.some.inj h ▸ .wake hpc hd
      · have hd : s.dirty = false := by simpa using hd
        have hs : s = t := by
          obtain rfl := Option.some.inj h
          cases s
          simp_all
        exact hs ▸ .unmoved hpc hd
    case h_2 => cases h

/-! ## What has been applied -/

/-- A change is on its way: its event is queued, or the flag is up. -/
def Pending (s : ZeroTouchClient V) : Prop := 0 < s.events ∨ s.dirty = true

/-- **Nothing is missing that has been read.** What is applied, and what a
load under way has collected, is what the keys read so far hold now. -/
inductive UpToDate (C : DsConversions V) (s : ZeroTouchClient V) : Prop
  | fresh : s.pc = .fresh → UpToDate C s
  | loading {first : Bool} {done todo : List ConfigKey} {c : SessionConfig} {a : AppliedConfig} :
      s.pc = .loading first todo c → done ++ todo = loadOrder →
      (s.applied, c) = readAll C s.store done (a, {}) → UpToDate C s
  | loaded {a : AppliedConfig} : s.pc = .loaded ∨ s.pc = .bridged ∨ s.pc = .idle →
      s.applied = loadConfigFromDs C s.store a → UpToDate C s

/-- **A timely step**: a write before the watch is of a key that is still to
be read, or of a value that reads as the one before. -/
def Timely (C : DsConversions V) (s : ZeroTouchClient V) : ConfigAct V → Prop
  | .write k v =>
    s.watching = true ∨ s.pc.Unread k ∨ readKey C k (some v) = readKey C k (s.store k)
  | _ => True

omit [DecidableEq V]

instance decidableTimely (s : ZeroTouchClient V) : ∀ a, Decidable (s.Timely C a)
  | .write _ _ => inferInstanceAs (Decidable (_ ∨ _ ∨ _))
  | .load | .read | .setConfig | .startBridge | .watch | .callback | .wake =>
    inferInstanceAs (Decidable True)

theorem UpToDate.of_loading {s : ZeroTouchClient V} (h : UpToDate C s) {first : Bool}
    {todo : List ConfigKey} {c : SessionConfig} (hpc : s.pc = .loading first todo c) :
    ∃ done a, done ++ todo = loadOrder ∧ (s.applied, c) = readAll C s.store done (a, {}) := by
  cases h with
  | fresh hpc' => simp [hpc] at hpc'
  | @loading _ done _ _ a hpc' horder happlied =>
    obtain ⟨-, rfl, rfl⟩ : _ ∧ todo = _ ∧ c = _ := by simpa using hpc.symm.trans hpc'
    exact ⟨done, a, horder, happlied⟩
  | loaded hpc' => simp [hpc] at hpc'

theorem UpToDate.of_loaded {s : ZeroTouchClient V} (h : UpToDate C s)
    (hpc : s.pc = .loaded ∨ s.pc = .bridged ∨ s.pc = .idle) :
    ∃ a, s.applied = loadConfigFromDs C s.store a := by
  cases h with
  | fresh hpc' => simp [hpc'] at hpc
  | loading hpc' => simp [hpc'] at hpc
  | @loaded a _ happlied => exact ⟨a, happlied⟩

/-- At the start of a load nothing has been read. -/
theorem UpToDate.of_begun {s : ZeroTouchClient V} {first : Bool}
    (hpc : s.pc = .loading first loadOrder {}) : UpToDate C s :=
  .loading (a := s.applied) hpc (List.nil_append _) rfl

/-- A timely write leaves everything read so far as it is. -/
theorem UpToDate.write {s : ZeroTouchClient V} (h : UpToDate C s) {k : ConfigKey} {v : V}
    (hk : s.pc.Unread k ∨ readKey C k (some v) = readKey C k (s.store k)) :
    UpToDate C { s with store := Function.update s.store k (some v) } := by
  -- what was read of one store reads the same of the other
  have hread : ∀ done : List ConfigKey, (s.pc.Unread k → k ∉ done) → ∀ k' ∈ done,
      readKey C k' (s.store k') = readKey C k' (Function.update s.store k (some v) k') := by
    intro done hdone k' hk'
    by_cases hkk : k' = k
    · subst hkk
      rw [Function.update_self]
      rcases hk with hk | hk
      · exact absurd hk' (hdone hk)
      · exact hk.symm
    · rw [Function.update_of_ne hkk]
  cases h with
  | fresh hpc => exact .fresh hpc
  | @loading first done todo c a hpc horder happlied =>
    refine .loading hpc horder (happlied.trans (readAll_congr (hread done fun hunread => ?_) _))
    have hmem : k ∈ todo := by simpa [RunPc.Unread, hpc] using hunread
    have hnodup : (done ++ todo).Nodup := by rw [horder]; decide
    exact fun hdone => List.disjoint_of_nodup_append hnodup hdone hmem
  | @loaded a hpc happlied =>
    refine .loaded (a := a) hpc (happlied.trans ?_)
    unfold loadConfigFromDs
    rw [readAll_congr (hread loadOrder fun hunread => ?_)]
    rcases hpc with hpc | hpc | hpc <;> simp [RunPc.Unread, hpc] at hunread

/-- One more read. -/
theorem UpToDate.read {s : ZeroTouchClient V} (h : UpToDate C s) {first : Bool} {k : ConfigKey}
    {todo : List ConfigKey} {c : SessionConfig} (hpc : s.pc = .loading first (k :: todo) c) :
    UpToDate C { s with
      applied := (readKey C k (s.store k) (s.applied, c)).1
      pc := .loading first todo (readKey C k (s.store k) (s.applied, c)).2 } := by
  obtain ⟨done, a, horder, happlied⟩ := h.of_loading hpc
  have horder' : (done ++ [k]) ++ todo = loadOrder := by simpa using horder
  refine .loading (a := a) rfl horder' ?_
  rw [readAll_concat, ← happlied]

/-- The last read was the last of the order, so the load is complete. -/
theorem UpToDate.setConfig {s : ZeroTouchClient V} (h : UpToDate C s) {first : Bool}
    {c : SessionConfig} (hpc : s.pc = .loading first [] c) :
    UpToDate C { s with
      applied := { s.applied with sessions := c }
      pc := if first then .loaded else .idle } := by
  obtain ⟨done, a, horder, happlied⟩ := h.of_loading hpc
  obtain rfl : done = loadOrder := by simpa using horder
  have hpc' : (if first then RunPc.loaded else .idle) = .loaded ∨
      (if first then RunPc.loaded else .idle) = .bridged ∨
      (if first then RunPc.loaded else .idle) = .idle := by
    cases first <;> simp
  refine .loaded (a := a) hpc' ?_
  rw [loadConfigFromDs, ← happlied]

/-- **The invariant**: a change that is not applied is pending. -/
def Heeded (C : DsConversions V) (s : ZeroTouchClient V) : Prop := s.Pending ∨ s.UpToDate C

theorem heeded_fresh (store : ConfigKey → Option V) : (fresh store).Heeded C := .inr (.fresh rfl)

theorem Pending.steps {s t : ZeroTouchClient V} {a : ConfigAct V} (h : s.Pending)
    (hs : Steps C s a t) : t.Heeded C := by
  cases hs with
  | changed k v => exact .inl (.inl (Nat.succ_pos _))
  | callback => exact .inl (.inr rfl)
  -- the flag is taken, and every key is still to be read
  | wake => exact .inr (.of_begun rfl)
  | _ => exact .inl h

theorem UpToDate.steps {s t : ZeroTouchClient V} {a : ConfigAct V} (h : s.UpToDate C)
    (ha : s.Timely C a) (hs : Steps C s a t) : t.Heeded C := by
  cases hs with
  | changed k v => exact .inl (.inl (Nat.succ_pos _))
  | unheard k v hu =>
    right
    rcases hu with hw | hsame
    · exact h.write (ha.resolve_left (by simp [hw]))
    · exact h.write (.inr (by rw [hsame]))
  | load hpc => exact .inr (.of_begun rfl)
  | read hpc => exact .inr (h.read hpc)
  | setConfig hpc => exact .inr (h.setConfig hpc)
  | startBridge hpc =>
    obtain ⟨a, happlied⟩ := h.of_loaded (.inl hpc)
    exact .inr (.loaded (.inr (.inl rfl)) happlied)
  | watch hpc =>
    obtain ⟨a, happlied⟩ := h.of_loaded (.inr (.inl hpc))
    exact .inr (.loaded (.inr (.inr rfl)) happlied)
  | callback => exact .inl (.inr rfl)
  | wake => exact .inr (.of_begun rfl)
  | unmoved => exact .inr h

/-- Start-up is over and nothing is under way: no event is queued, the flag
is down, and the reactor waits. -/
def Quiescent (s : ZeroTouchClient V) : Prop := s.pc = .idle ∧ s.events = 0 ∧ s.dirty = false

instance (s : ZeroTouchClient V) : Decidable s.Quiescent := inferInstanceAs (Decidable (_ ∧ _))

variable [DecidableEq V]

/-- **No configuration is lost.** In every run whose steps are all timely,
whatever the interleaving, the daemon at rest applies what a load would
compute from the store as it stands. -/
theorem applied_of_quiescent {store : ConfigKey → Option V} {as : List (ConfigAct V)}
    {s : ZeroTouchClient V} (hP : Along (step C) (Timely C) (fresh store) as)
    (h : exec (step C) (fresh store) as = some s) (hq : s.Quiescent) :
    s.applied = loadConfigFromDs C s.store s.applied := by
  have hheeded : s.Heeded C := by
    refine exec_invariant_along (fun s a t hI ha hstep => ?_) (heeded_fresh store) hP h
    rcases hI with hI | hI
    · exact hI.steps (steps_of_step hstep)
    · exact hI.steps ha (steps_of_step hstep)
  obtain ⟨hpc, hevents, hdirty⟩ := hq
  rcases hheeded with (hpending | hpending) | huptodate
  · omega
  · simp [hdirty] at hpending
  · obtain ⟨a, happlied⟩ := huptodate.of_loaded (.inr (.inr hpc))
    rw [happlied]
    exact loadConfigFromDs_eq ..

end ZeroTouchClient

/-! ## Runs of the daemon -/

/-- Values of the data store, each with the one conversion it has. -/
inductive DsVariant
  | text (t : Text)
  | int32 (n : Int)
  | bool (b : Bool)
  deriving DecidableEq, Repr

namespace DsVariant

def conversions : DsConversions DsVariant where
  toText | .text t => some t | _ => none
  toInt32 | .int32 n => some n | _ => none
  toBool | .bool b => some b | _ => none

/-- The operator has switched the daemon on. -/
def switchedOn : ConfigKey → Option DsVariant
  | .enabled => some (.bool true)
  | _ => none

end DsVariant

namespace ZeroTouchClient

open DsVariant

/-- The first load, with no write in between. -/
def firstLoad : List (ConfigAct DsVariant) :=
  .load :: loadOrder.map (fun _ => .read) ++ [.setConfig]

/-- The daemon is switched off after the watch, and the port is written
before the load gets to it. -/
def switchedOffLate : List (ConfigAct DsVariant) :=
  [.load, .read, .write .gnmiPort (.int32 9339), .read, .read, .read, .read, .read, .setConfig,
    .startBridge, .watch, .write .enabled (.bool false), .callback, .wake] ++
    loadOrder.map (fun _ => .read) ++ [.setConfig]

theorem applied_of_quiescent_switchedOffLate :
    ∃ s, exec (step conversions) (fresh switchedOn) switchedOffLate = some s ∧ s.Quiescent ∧
      s.applied.enabled = false ∧ s.applied.gnmiPort = 9339 ∧
      s.applied = loadConfigFromDs conversions s.store s.applied := by
  have hrun : (exec (step conversions) (fresh switchedOn) switchedOffLate).any (fun s =>
      decide (s.Quiescent ∧ s.applied.enabled = false ∧ s.applied.gnmiPort = 9339)) = true := by
    decide +kernel
  obtain ⟨s, hs, h⟩ := (Option.any_eq_true _ _).1 hrun
  obtain ⟨hq, henabled, hport⟩ := of_decide_eq_true h
  have hP : Along (step conversions) (Timely conversions) (fresh switchedOn) switchedOffLate := by
    decide +kernel
  exact ⟨s, hs, hq, henabled, hport, applied_of_quiescent hP hs hq⟩

/-- **A switch-off between the first load and the watch is lost**: the
daemon at rest stays on. -/
theorem not_applied_of_quiescent_earlySwitchOff :
    ¬ ∀ (C : DsConversions DsVariant) (store : ConfigKey → Option DsVariant)
      (as : List (ConfigAct DsVariant)) (s : ZeroTouchClient DsVariant)
      (_ : exec (step C) (fresh store) as = some s) (_ : s.Quiescent),
      s.applied = loadConfigFromDs C s.store s.applied := by
  intro h
  have hrun : (exec (step conversions) (fresh switchedOn)
      (firstLoad ++ [.write .enabled (.bool false), .startBridge, .watch])).any (fun s =>
      decide (s.Quiescent ∧ s.applied.enabled = true ∧
        (loadConfigFromDs conversions s.store s.applied).enabled = false)) = true := by
    decide +kernel
  obtain ⟨s, hs, hdec⟩ := (Option.any_eq_true _ _).1 hrun
  obtain ⟨hq, hon, hoff⟩ := of_decide_eq_true hdec
  have heq := h conversions switchedOn _ s hs hq
  rw [← heq, hon] at hoff
  cases hoff

end ZeroTouchClient

end ZeroTouch
