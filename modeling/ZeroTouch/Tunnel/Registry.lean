import Mathlib.Logic.Function.Basic
import ZeroTouch.Common.Run
import ZeroTouch.Common.Text
/-!
# The registry of the tunnel server

`Registry`, and the `Register` handlers that share it. A handler runs
once for each session; it keeps the target it last added in a variable of
its own, removes the entry under it before it adds another, and removes
it again when the session ends. Each call of the registry is one step, so
the handlers of different sessions interleave between any two of them.

`Remove` leaves an entry that is another session's. So the latest session
to add a target keeps it (`get_of_current`). The empty target is also how
a handler tells that it has none: its entry is not removed by another
`REGISTER` (`not_bound_once_empty`), and this is the only way an entry is
left behind (`bound_once_of_rebindable`).
-/

namespace ZeroTouch

/-- `Registry`: which session serves which target. -/
structure Registry where
  sessions : Text → Option ℕ := fun _ => none

namespace Registry

/-- `Registry::Get`. -/
def get (r : Registry) (target : Text) : Option ℕ := r.sessions target

/-- `Registry::Add`. -/
def add (r : Registry) (target : Text) (sess : ℕ) : Registry :=
  ⟨Function.update r.sessions target (some sess)⟩

/-- `Registry::Remove`: only an entry that is still this session's. -/
def remove (r : Registry) (target : Text) (sess : ℕ) : Registry :=
  if r.get target = some sess then ⟨Function.update r.sessions target none⟩ else r

@[simp] theorem get_add (r : Registry) (t t' : Text) (s s' : ℕ) :
    (r.add t s).get t' = some s' ↔ (t' = t ∧ s' = s) ∨ (t' ≠ t ∧ r.get t' = some s') := by
  simp only [get, add, Function.update_apply]
  by_cases h : t' = t
  · simp [h, eq_comm]
  · simp [h]

@[simp] theorem get_remove (r : Registry) (t t' : Text) (s s' : ℕ) :
    (r.remove t s).get t' = some s' ↔ r.get t' = some s' ∧ ¬ (t' = t ∧ s' = s) := by
  unfold remove
  by_cases hr : r.get t = some s
  · rw [if_pos hr]
    simp only [get, Function.update_apply] at hr ⊢
    by_cases h : t' = t
    · simp [h, hr, eq_comm]
    · simp [h]
  · rw [if_neg hr]
    refine ⟨fun h => ⟨h, ?_⟩, fun h => h.1⟩
    rintro ⟨rfl, rfl⟩
    exact hr h

end Registry

/-! ## The handlers -/

/-- Where a `Register` handler is. -/
inductive HandlerPc
  /-- The session has not been opened. -/
  | unopened
  /-- Between frames. -/
  | reading
  /-- At a `REGISTER`, before the old name is dropped. -/
  | removing (target : Text)
  /-- At a `REGISTER`, before the new name is added. -/
  | adding (target : Text)
  /-- Before the `REGISTER_ACK`. -/
  | acking
  /-- After the last frame. -/
  | unwinding
  /-- Before `Shutdown` and `CloseAll`. -/
  | removed
  /-- The handler has returned. -/
  | done
  deriving DecidableEq, Repr

/-- A handler, with its local `target`. -/
structure Handler where
  pc : HandlerPc := .unopened
  target : Text := []
  deriving DecidableEq, Repr

/-- The handler has not yet taken its entry back. -/
def Handler.Running (h : Handler) : Prop :=
  h.pc ≠ .unopened ∧ h.pc ≠ .removed ∧ h.pc ≠ .done

instance (h : Handler) : Decidable h.Running := inferInstanceAs (Decidable (_ ∧ _ ∧ _))

/-- The handler serves `t` and is not about to drop it. -/
structure Handler.Serves (h : Handler) (t : Text) : Prop where
  target : h.target = t
  removing : ∀ new, h.pc ≠ .removing new
  adding : ∀ new, h.pc = .adding new → new = t

/-- What has happened: a `REGISTER` was read, or a target was added. -/
inductive RegisterEvent
  | asked (sess : ℕ) (target : Text)
  | added (sess : ℕ) (target : Text)
  deriving DecidableEq, Repr

/-- The handlers and the registry they share. `log` has the latest event
first. -/
structure RegisterServer where
  registry : Registry := {}
  handler : ℕ → Handler := fun _ => {}
  log : List RegisterEvent := []

/-- A step of a handler. -/
inductive HandlerAct
  | opened
  | register (target : Text)
  | remove
  | add
  | ack
  /-- `Read` fails: the session has ended. -/
  | hangUp
  | unwind
  | finish
  deriving DecidableEq, Repr

namespace RegisterServer

/-- Set one handler. -/
def set (st : RegisterServer) (s : ℕ) (h : Handler) : RegisterServer :=
  { st with handler := Function.update st.handler s h }

@[simp] theorem set_log (st : RegisterServer) (s : ℕ) (h : Handler) :
    (st.set s h).log = st.log := rfl

@[simp] theorem set_handler_self (st : RegisterServer) (s : ℕ) (h : Handler) :
    (st.set s h).handler s = h := Function.update_self ..

@[simp] theorem set_handler_ne (st : RegisterServer) {s s' : ℕ} (hs : s' ≠ s) (h : Handler) :
    (st.set s h).handler s' = st.handler s' := Function.update_of_ne hs ..

/-- What a handler does at a `REGISTER`: drop the old name first, if there
is one and it is another. -/
def atRegister (old new : Text) : HandlerPc :=
  if old ≠ [] ∧ old ≠ new then .removing new else .adding new

theorem atRegister_cases (old new : Text) :
    (old ≠ new ∧ atRegister old new = .removing new) ∨
      ((old = [] ∨ old = new) ∧ atRegister old new = .adding new) := by
  unfold atRegister
  by_cases h : old ≠ [] ∧ old ≠ new
  · exact .inl ⟨h.2, if_pos h⟩
  · refine .inr ⟨?_, if_neg h⟩
    by_cases h0 : old = []
    · exact .inl h0
    · exact .inr (by_contra fun hne => h ⟨h0, hne⟩)

/-- One step of the handler of session `s`. -/
def step (st : RegisterServer) : ℕ × HandlerAct → Option RegisterServer
  | (s, a) =>
    let h := st.handler s
    match h.pc, a with
    | .unopened, .opened => some (st.set s { h with pc := .reading })
    | .reading, .register t =>
      some { st.set s { h with pc := atRegister h.target t } with log := .asked s t :: st.log }
    | .removing t, .remove =>
      some { st.set s { h with pc := .adding t } with registry := st.registry.remove h.target s }
    | .adding t, .add =>
      some { st.set s ⟨.acking, t⟩ with
        registry := st.registry.add t s, log := .added s t :: st.log }
    | .acking, .ack => some (st.set s { h with pc := .reading })
    | .reading, .hangUp => some (st.set s { h with pc := .unwinding })
    | .unwinding, .unwind =>
      some { st.set s { h with pc := .removed } with registry := st.registry.remove h.target s }
    | .removed, .finish => some (st.set s { h with pc := .done })
    | _, _ => none

/-- **What a step can do.** The first constructor is every step that
leaves the registry and the log alone. -/
inductive Steps (st : RegisterServer) : ℕ × HandlerAct → RegisterServer → Prop
  | moves {s : ℕ} {a : HandlerAct} (pc : HandlerPc) :
      ((st.handler s).pc = .unopened ∧ pc = .reading) ∨
        ((st.handler s).pc = .acking ∧ pc = .reading) ∨
        ((st.handler s).pc = .reading ∧ pc = .unwinding) ∨
        ((st.handler s).pc = .removed ∧ pc = .done) →
      Steps st (s, a) (st.set s { st.handler s with pc := pc })
  | register {s : ℕ} {t : Text} : (st.handler s).pc = .reading →
      Steps st (s, .register t) { st.set s { st.handler s with
        pc := atRegister (st.handler s).target t } with log := .asked s t :: st.log }
  | remove {s : ℕ} {t : Text} : (st.handler s).pc = .removing t →
      Steps st (s, .remove) { st.set s { st.handler s with pc := .adding t } with
        registry := st.registry.remove (st.handler s).target s }
  | add {s : ℕ} {t : Text} : (st.handler s).pc = .adding t →
      Steps st (s, .add) { st.set s ⟨.acking, t⟩ with
        registry := st.registry.add t s, log := .added s t :: st.log }
  | unwind {s : ℕ} : (st.handler s).pc = .unwinding →
      Steps st (s, .unwind) { st.set s { st.handler s with pc := .removed } with
        registry := st.registry.remove (st.handler s).target s }

theorem steps_of_step {st st' : RegisterServer} {a : ℕ × HandlerAct} (h : st.step a = some st') :
    Steps st a st' := by
  obtain ⟨s, a⟩ := a
  simp only [step] at h
  split at h
  case h_1 hpc => exact Option.some.inj h ▸ .moves _ (.inl ⟨hpc, rfl⟩)
  case h_2 hpc => exact Option.some.inj h ▸ .register hpc
  case h_3 hpc => exact Option.some.inj h ▸ .remove hpc
  case h_4 hpc => exact Option.some.inj h ▸ .add hpc
  case h_5 hpc => exact Option.some.inj h ▸ .moves _ (.inr (.inl ⟨hpc, rfl⟩))
  case h_6 hpc => exact Option.some.inj h ▸ .moves _ (.inr (.inr (.inl ⟨hpc, rfl⟩)))
  case h_7 hpc => exact Option.some.inj h ▸ .unwind hpc
  case h_8 hpc => exact Option.some.inj h ▸ .moves _ (.inr (.inr (.inr ⟨hpc, rfl⟩)))
  case h_9 => cases h

theorem Steps.handler_ne {st st' : RegisterServer} {s s' : ℕ} {a : HandlerAct}
    (h : Steps st (s, a) st') (hs : s' ≠ s) : st'.handler s' = st.handler s' := by
  cases h <;> exact set_handler_ne _ hs _

theorem Steps.pc_ne_unopened {st st' : RegisterServer} {s : ℕ} {a : HandlerAct}
    (h : Steps st (s, a) st') : (st'.handler s).pc ≠ .unopened := by
  cases h with
  | moves pc hpc =>
    rcases hpc with ⟨-, rfl⟩ | ⟨-, rfl⟩ | ⟨-, rfl⟩ | ⟨-, rfl⟩ <;> simp
  | @register _ t hpc =>
    simp only [set_handler_self]
    rcases atRegister_cases (st.handler s).target t with ⟨-, heq⟩ | ⟨-, heq⟩ <;> simp [heq]
  | remove hpc => simp
  | add hpc => simp
  | unwind hpc => simp

theorem Steps.added_of_mem {st st' : RegisterServer} {s s' : ℕ} {a : HandlerAct} {t : Text}
    (h : Steps st (s, a) st') (hs : s' ≠ s) (hadd : .added s' t ∈ st'.log) :
    .added s' t ∈ st.log := by
  cases h with
  | moves pc hpc => exact hadd
  | register hpc => simpa using hadd
  | remove hpc => exact hadd
  | add hpc => simpa [hs] using hadd
  | unwind hpc => exact hadd

/-! ## The latest registration -/

/-- **Session `s` holds target `t`**: it performed the latest `Add` of it,
and has not been asked to register another since. -/
def Current (log : List RegisterEvent) (s : ℕ) (t : Text) : Prop :=
  ∃ since before, log = since ++ .added s t :: before ∧
    (∀ s', .added s' t ∉ since) ∧ ∀ t', .asked s t' ∈ since → t' = t

theorem Current.mem {log : List RegisterEvent} {s : ℕ} {t : Text} (h : Current log s t) :
    .added s t ∈ log := by
  obtain ⟨since, before, rfl, -⟩ := h
  simp

theorem Current.of_asked {log : List RegisterEvent} {s s' : ℕ} {t t' : Text}
    (h : Current (.asked s' t' :: log) s t) : Current log s t ∧ (s' = s → t' = t) := by
  obtain ⟨since, before, heq, hadd, hask⟩ := h
  cases since with
  | nil => cases heq
  | cons e since =>
    simp only [List.cons_append, List.cons.injEq] at heq
    obtain ⟨rfl, rfl⟩ := heq
    refine ⟨⟨since, before, rfl, fun s hs => hadd s (List.mem_cons_of_mem _ hs),
      fun t hs => hask t (List.mem_cons_of_mem _ hs)⟩, ?_⟩
    rintro rfl
    exact hask t' List.mem_cons_self

theorem Current.of_added {log : List RegisterEvent} {s s' : ℕ} {t t' : Text}
    (h : Current (.added s' t' :: log) s t) :
    (s' = s ∧ t' = t) ∨ (t' ≠ t ∧ Current log s t) := by
  obtain ⟨since, before, heq, hadd, hask⟩ := h
  cases since with
  | nil =>
    cases heq
    exact .inl ⟨rfl, rfl⟩
  | cons e since =>
    simp only [List.cons_append, List.cons.injEq] at heq
    obtain ⟨rfl, rfl⟩ := heq
    refine .inr ⟨?_, since, before, rfl, fun s hs => hadd s (List.mem_cons_of_mem _ hs),
      fun t hs => hask t (List.mem_cons_of_mem _ hs)⟩
    rintro rfl
    exact hadd s' List.mem_cons_self

/-- A session that holds a target has its entry, and its handler is not
about to take it away. -/
structure Kept (st : RegisterServer) : Prop where
  opened : ∀ s t, .added s t ∈ st.log → (st.handler s).pc ≠ .unopened
  entry : ∀ s t, Current st.log s t → (st.handler s).Running →
    st.registry.get t = some s ∧ (st.handler s).Serves t

/-- A session that has added a target stays opened. -/
theorem Steps.opened {st st' : RegisterServer} {a : ℕ × HandlerAct} (h : Steps st a st')
    (hop : ∀ s t, .added s t ∈ st.log → (st.handler s).pc ≠ .unopened) :
    ∀ s t, .added s t ∈ st'.log → (st'.handler s).pc ≠ .unopened := by
  obtain ⟨s, a⟩ := a
  intro s' t hadd
  by_cases hs : s' = s
  · subst hs
    exact h.pc_ne_unopened
  · rw [h.handler_ne hs]
    exact hop s' t (h.added_of_mem hs hadd)

/-- **No step takes a held target away.** -/
theorem Kept.step {st st' : RegisterServer} {a : ℕ × HandlerAct} (hst : Kept st)
    (h : st.step a = some st') : Kept st' := by
  obtain ⟨hop, hen⟩ := hst
  have hsteps := steps_of_step h
  refine ⟨hsteps.opened hop, ?_⟩
  cases hsteps with
  | @moves s a pc hpc =>
    intro s' t hc hr
    by_cases hs : s' = s
    · subst hs
      rw [set_handler_self] at hr ⊢
      have hrun : (st.handler s').Running := by
        rcases hpc with ⟨hpc, rfl⟩ | ⟨hpc, rfl⟩ | ⟨hpc, rfl⟩ | ⟨hpc, rfl⟩
        · exact absurd hpc (hop s' t hc.mem)
        · simp [Handler.Running, hpc]
        · simp [Handler.Running, hpc]
        · exact absurd rfl hr.2.2
      obtain ⟨hget, hserves⟩ := hen s' t hc hrun
      refine ⟨hget, hserves.target, ?_, ?_⟩
      · rcases hpc with ⟨-, rfl⟩ | ⟨-, rfl⟩ | ⟨-, rfl⟩ | ⟨-, rfl⟩ <;> simp
      · rcases hpc with ⟨-, rfl⟩ | ⟨-, rfl⟩ | ⟨-, rfl⟩ | ⟨-, rfl⟩ <;> simp
    · rw [set_handler_ne _ hs] at hr ⊢
      exact hen s' t hc hr
  | @register s t hpc =>
    intro s' t' hc' hr
    obtain ⟨hc, hsame⟩ := hc'.of_asked
    by_cases hs : s' = s
    · subst hs
      -- the target it holds is the one it is asked for again
      obtain ⟨hget, hserves⟩ := hen s' t' hc (by simp [Handler.Running, hpc])
      have ht := hsame rfl
      simp only [set_handler_self, atRegister, hserves.target, ht, ne_eq, not_true_eq_false,
        and_false, if_false]
      exact ⟨hget, rfl, by simp, by simp⟩
    · simp only [set_handler_ne _ hs] at hr ⊢
      exact hen s' t' hc hr
  | @remove s t hpc =>
    intro s' t' hc hr
    by_cases hs : s' = s
    · subst hs
      exact absurd hpc ((hen s' t' hc (by simp [Handler.Running, hpc])).2.removing t)
    · simp only [set_handler_ne _ hs] at hr ⊢
      obtain ⟨hget, hserves⟩ := hen s' t' hc hr
      exact ⟨(Registry.get_remove ..).2 ⟨hget, fun h => hs h.2⟩, hserves⟩
  | @add s t hpc =>
    intro s' t' hc' hr
    rcases hc'.of_added with ⟨rfl, rfl⟩ | ⟨hne, hc⟩
    · exact ⟨(Registry.get_add ..).2 (.inl ⟨rfl, rfl⟩), by simp, by simp, by simp⟩
    · by_cases hs : s' = s
      · subst hs
        exact absurd ((hen s' t' hc (by simp [Handler.Running, hpc])).2.adding t hpc) hne
      · simp only [set_handler_ne _ hs] at hr ⊢
        obtain ⟨hget, hserves⟩ := hen s' t' hc hr
        exact ⟨(Registry.get_add ..).2 (.inr ⟨hne.symm, hget⟩), hserves⟩
  | @unwind s hpc =>
    intro s' t' hc hr
    by_cases hs : s' = s
    · subst hs
      simp [Handler.Running] at hr
    · simp only [set_handler_ne _ hs] at hr ⊢
      obtain ⟨hget, hserves⟩ := hen s' t' hc hr
      exact ⟨(Registry.get_remove ..).2 ⟨hget, fun h => hs h.2⟩, hserves⟩

theorem kept_init : Kept {} where
  opened := by simp
  entry := by
    intro s t hc
    simpa using hc.mem

/-- **The latest session to register a target keeps it.** -/
theorem get_of_current {as : List (ℕ × HandlerAct)} {st : RegisterServer}
    (h : exec step {} as = some st) {s : ℕ} {t : Text} (hc : Current st.log s t)
    (hr : (st.handler s).Running) : st.registry.get t = some s :=
  ((exec_invariant (fun _ _ _ hI hs => Kept.step hI hs) kept_init h).entry s t hc hr).1

/-- A session registers, and another takes its target over while the first
is still there. -/
def takeover : List (ℕ × HandlerAct) :=
  [(0, .opened), (0, .register "edge-1".toList), (0, .add), (0, .ack),
    (1, .opened), (1, .register "edge-1".toList), (1, .add),
    (0, .hangUp), (0, .unwind), (0, .finish), (1, .ack)]

theorem get_of_current_takeover :
    ∃ st, exec step {} takeover = some st ∧ Current st.log 1 "edge-1".toList ∧
      (st.handler 1).Running ∧ st.registry.get "edge-1".toList = some 1 := by
  have hc : Current [.added 1 "edge-1".toList, .asked 1 "edge-1".toList,
      .added 0 "edge-1".toList, .asked 0 "edge-1".toList] 1 "edge-1".toList :=
    ⟨[], _, rfl, by simp, by simp⟩
  have hrun : ∃ st, exec step {} takeover = some st ∧ Current st.log 1 "edge-1".toList ∧
      (st.handler 1).Running := ⟨_, rfl, hc, by decide⟩
  obtain ⟨st, hst, hcur, hr⟩ := hrun
  exact ⟨st, hst, hcur, hr, get_of_current hst hcur hr⟩

/-! ## Entries left behind -/

/-- The target of the last `REGISTER` of a session. -/
def lastAsked (log : List RegisterEvent) (s : ℕ) : Option Text :=
  log.findSome? fun
    | .asked s' t => if s' = s then some t else none
    | .added _ _ => none

@[simp] theorem lastAsked_asked_self (log : List RegisterEvent) (s : ℕ) (t : Text) :
    lastAsked (.asked s t :: log) s = some t := by simp [lastAsked]

@[simp] theorem lastAsked_asked_ne (log : List RegisterEvent) {s s' : ℕ} (h : s' ≠ s) (t : Text) :
    lastAsked (.asked s t :: log) s' = lastAsked log s' := by simp [lastAsked, h.symm]

@[simp] theorem lastAsked_added (log : List RegisterEvent) (s s' : ℕ) (t : Text) :
    lastAsked (.added s t :: log) s' = lastAsked log s' := by simp [lastAsked]

theorem Steps.lastAsked_ne {st st' : RegisterServer} {s s' : ℕ} {a : HandlerAct}
    (h : Steps st (s, a) st') (hs : s' ≠ s) : lastAsked st'.log s' = lastAsked st.log s' := by
  cases h with
  | moves pc hpc => rfl
  | register hpc => exact lastAsked_asked_ne _ hs _
  | remove hpc => rfl
  | add hpc => exact lastAsked_added ..
  | unwind hpc => rfl

/-- **No entry is left behind**: a session between frames is bound under
the target of its last `REGISTER` at most, and a session whose handler has
returned under none. -/
def BoundOnce (st : RegisterServer) : Prop :=
  ∀ s t, st.registry.get t = some s →
    ((st.handler s).pc = .reading → lastAsked st.log s = some t) ∧ (st.handler s).pc ≠ .done

/-- **The step is no `REGISTER` of another target by a session that is
bound under the empty one.** -/
def Rebindable (st : RegisterServer) : ℕ × HandlerAct → Prop
  | (s, .register t) => t ≠ [] → st.registry.get [] ≠ some s
  | _ => True

instance (st : RegisterServer) (a : ℕ × HandlerAct) : Decidable (Rebindable st a) := by
  unfold Rebindable
  split <;> infer_instance

/-- An entry a handler can have, at each point of it. -/
def EntryOk (h : Handler) (asked : Option Text) (t : Text) : Prop :=
  match h.pc with
  | .reading | .acking | .unwinding => h.target = t ∧ asked = some t
  | .removing _ => h.target = t
  | .adding new => new = t
  | .unopened | .removed | .done => False

/-- Every entry is one its session's handler will take back. -/
structure Bound (st : RegisterServer) : Prop where
  entry : ∀ s t, st.registry.get t = some s → EntryOk (st.handler s) (lastAsked st.log s) t
  asked : ∀ s new, (st.handler s).pc = .removing new ∨ (st.handler s).pc = .adding new →
    lastAsked st.log s = some new

/-- The target a handler is about to register is the last it was asked for. -/
theorem Steps.asked {st st' : RegisterServer} {a : ℕ × HandlerAct} (h : Steps st a st')
    (hask : ∀ s new, (st.handler s).pc = .removing new ∨ (st.handler s).pc = .adding new →
      lastAsked st.log s = some new) :
    ∀ s new, (st'.handler s).pc = .removing new ∨ (st'.handler s).pc = .adding new →
      lastAsked st'.log s = some new := by
  obtain ⟨s, a⟩ := a
  intro s' new hnew
  by_cases hs : s' = s
  · subst hs
    cases h with
    | moves pc hpc =>
      rcases hpc with ⟨-, rfl⟩ | ⟨-, rfl⟩ | ⟨-, rfl⟩ | ⟨-, rfl⟩ <;> simp at hnew
    | @register _ t hpc =>
      simp only [set_handler_self] at hnew
      rcases atRegister_cases (st.handler s').target t with ⟨-, heq⟩ | ⟨-, heq⟩ <;>
        simp only [heq] at hnew <;> simpa [eq_comm] using hnew
    | @remove _ t hpc =>
      have : t = new := by simpa using hnew
      exact this ▸ hask s' t (.inl hpc)
    | add hpc => simp at hnew
    | unwind hpc => simp at hnew
  · rw [h.handler_ne hs] at hnew
    rw [h.lastAsked_ne hs]
    exact hask s' new hnew

/-- **A step that leaves no empty target keeps every entry in its handler's
hands.** -/
theorem Bound.step {st st' : RegisterServer} {a : ℕ × HandlerAct} (hst : Bound st)
    (ha : Rebindable st a) (h : st.step a = some st') : Bound st' := by
  obtain ⟨hen, hask⟩ := hst
  have hsteps := steps_of_step h
  refine ⟨?_, hsteps.asked hask⟩
  cases hsteps with
  | @moves s a pc hpc =>
    intro s' t hget
    have hent := hen s' t hget
    by_cases hs : s' = s
    · subst hs
      simp only [set_handler_self, set_log]
      rcases hpc with ⟨hpc, rfl⟩ | ⟨hpc, rfl⟩ | ⟨hpc, rfl⟩ | ⟨hpc, rfl⟩ <;>
        simp only [EntryOk, hpc] at hent ⊢ <;> exact hent
    · rw [set_handler_ne _ hs]
      exact hent
  | @register s t hpc =>
    intro s' t' hget
    have hent := hen s' t' hget
    by_cases hs : s' = s
    · subst hs
      simp only [EntryOk, hpc] at hent
      obtain ⟨rfl, -⟩ := hent
      simp only [set_handler_self]
      rcases atRegister_cases (st.handler s').target t with ⟨-, heq⟩ | ⟨hold, heq⟩
      · simp only [EntryOk, heq]
      · simp only [EntryOk, heq]
        rcases hold with hold | hold
        · -- bound under the empty target: asked for it again
          refine by_contra fun hne => ha (fun h0 => hne (h0.trans hold.symm)) ?_
          rw [← hold]
          exact hget
        · exact hold.symm
    · simpa [hs] using hent
  | @remove s t hpc =>
    intro s' t' hget
    obtain ⟨hget, hne⟩ := (Registry.get_remove ..).1 hget
    have hent := hen s' t' hget
    by_cases hs : s' = s
    · subst hs
      simp only [EntryOk, hpc] at hent
      exact absurd ⟨hent.symm, rfl⟩ hne
    · simpa [hs] using hent
  | @add s t hpc =>
    intro s' t' hget
    by_cases hs : s' = s
    · subst hs
      have ht : t = t' := by
        rcases (Registry.get_add ..).1 hget with ⟨rfl, -⟩ | ⟨-, hget⟩
        · rfl
        · simpa [EntryOk, hpc] using hen s' t' hget
      subst ht
      simpa [EntryOk] using hask s' t (.inr hpc)
    · have hget : st.registry.get t' = some s' := by
        rcases (Registry.get_add ..).1 hget with ⟨-, h⟩ | ⟨-, h⟩
        · exact absurd h hs
        · exact h
      simpa [hs] using hen s' t' hget
  | @unwind s hpc =>
    intro s' t' hget
    obtain ⟨hget, hne⟩ := (Registry.get_remove ..).1 hget
    have hent := hen s' t' hget
    by_cases hs : s' = s
    · subst hs
      simp only [EntryOk, hpc] at hent
      exact absurd ⟨hent.1.symm, rfl⟩ hne
    · simpa [hs] using hent

theorem bound_init : Bound {} where
  entry := by simp [Registry.get]
  asked := by simp

theorem Bound.boundOnce {st : RegisterServer} (hst : Bound st) : st.BoundOnce := by
  intro s t hget
  have hent := hst.entry s t hget
  constructor
  · intro hpc
    simp only [EntryOk, hpc] at hent
    exact hent.2
  · intro hpc
    simp only [EntryOk, hpc] at hent

/-- **Where no session is asked to leave the empty target, no entry is left
behind.** -/
theorem bound_once_of_rebindable {as : List (ℕ × HandlerAct)} {st : RegisterServer}
    (ha : Along step Rebindable {} as) (h : exec step {} as = some st) : st.BoundOnce :=
  (exec_invariant_along (fun _ _ _ hI hP hs => Bound.step hI hP hs) bound_init ha h).boundOnce

theorem bound_once_takeover :
    Along step Rebindable {} takeover ∧ ∃ st, exec step {} takeover = some st ∧ st.BoundOnce := by
  have ha : Along step Rebindable {} takeover := by decide
  exact ⟨ha, _, rfl, bound_once_of_rebindable ha rfl⟩

/-- **The empty target's entry outlives its session.** The first `REGISTER`
is for the empty target, the second for another: only the second entry is
taken back. -/
theorem not_bound_once_empty :
    ¬ ∀ (as : List (ℕ × HandlerAct)) (st : RegisterServer), exec step {} as = some st →
      st.BoundOnce := by
  intro h
  have hst := h [(0, .opened), (0, .register []), (0, .add), (0, .ack),
    (0, .register "edge-1".toList), (0, .add), (0, .ack),
    (0, .hangUp), (0, .unwind), (0, .finish)] _ rfl 0 [] rfl
  exact hst.2 rfl

end RegisterServer

end ZeroTouch
