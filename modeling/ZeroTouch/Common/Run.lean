import Mathlib.Data.Nat.Notation
import Mathlib.Logic.Basic
/-!
# Runs of a step function

A system is a step function: in a state, an action either has an outcome
or cannot happen. What the environment chooses is part of the action, so
a run is a list of actions, and a property of every run is a property of
every list. An invariant is kept by every step; a conditional one by
every step that meets a condition, along a run whose steps all do. Where
such steps also lower a measure, there are only so many of them; and where
one is possible until a goal is met, a run of them meets it.
-/

namespace ZeroTouch

universe u v

variable {σ : Type u} {α : Type v}

/-- The state a list of actions leads to, if all of them can happen. -/
def exec (step : σ → α → Option σ) : σ → List α → Option σ
  | s, [] => some s
  | s, a :: as => (step s a).bind fun t => exec step t as

/-- Every step of the run meets `P`, in the state it is taken in. -/
def Along (step : σ → α → Option σ) (P : σ → α → Prop) : σ → List α → Prop
  | _, [] => True
  | s, a :: as => P s a ∧
    match step s a with
    | some t => Along step P t as
    | none => True

section

variable {step : σ → α → Option σ}

@[simp] theorem exec_nil (s : σ) : exec step s [] = some s := rfl

theorem exec_cons {s t : σ} {a : α} {as : List α} :
    exec step s (a :: as) = some t ↔ ∃ r, step s a = some r ∧ exec step r as = some t :=
  Option.bind_eq_some_iff

theorem along_cons {P : σ → α → Prop} {s : σ} {a : α} {as : List α} :
    Along step P s (a :: as) ↔ P s a ∧ ∀ t, step s a = some t → Along step P t as := by
  rw [Along]
  cases step s a <;> simp

/-- A run whose steps all meet a condition is two such runs, at any of its
states. -/
theorem Along.split {P : σ → α → Prop} {s r : σ} {as bs : List α}
    (h : Along step P s (as ++ bs)) (hr : exec step s as = some r) :
    Along step P s as ∧ Along step P r bs := by
  induction as generalizing s with
  | nil =>
    obtain rfl : s = r := Option.some.inj hr
    exact ⟨trivial, h⟩
  | cons a as ih =>
    obtain ⟨s', hs', hr⟩ := exec_cons.1 hr
    obtain ⟨ha, h⟩ := along_cons.1 h
    obtain ⟨has, hbs⟩ := ih (h s' hs') hr
    refine ⟨along_cons.2 ⟨ha, fun t ht => ?_⟩, hbs⟩
    exact Option.some.inj (hs'.symm.trans ht) ▸ has

theorem Along.imp {P Q : σ → α → Prop} (hPQ : ∀ s a, P s a → Q s a) {s : σ} {as : List α}
    (h : Along step P s as) : Along step Q s as := by
  induction as generalizing s with
  | nil => trivial
  | cons a as ih =>
    obtain ⟨ha, h⟩ := along_cons.1 h
    exact along_cons.2 ⟨hPQ s a ha, fun t ht => ih (h t ht)⟩

/-- A condition that can be checked of a step can be checked of a run. -/
instance decidableAlong (P : σ → α → Prop) [∀ s a, Decidable (P s a)] :
    ∀ (s : σ) (as : List α), Decidable (Along step P s as)
  | _, [] => inferInstanceAs (Decidable True)
  | s, a :: as =>
    have : Decidable (match step s a with | some t => Along step P t as | none => True) :=
      match step s a with
      | some t => decidableAlong P t as
      | none => inferInstanceAs (Decidable True)
    inferInstanceAs (Decidable (_ ∧ _))

/-- **The conditional invariant rule.** -/
theorem exec_invariant_along {I : σ → Prop} {P : σ → α → Prop}
    (hstep : ∀ s a t, I s → P s a → step s a = some t → I t) {s t : σ} {as : List α}
    (hs : I s) (hP : Along step P s as) (h : exec step s as = some t) : I t := by
  induction as generalizing s with
  | nil =>
    simp only [exec_nil, Option.some.injEq] at h
    exact h ▸ hs
  | cons a as ih =>
    obtain ⟨r, hr, h⟩ := exec_cons.1 h
    obtain ⟨ha, hP⟩ := along_cons.1 hP
    exact ih (hstep s a r hs ha hr) (hP r hr) h

/-- A condition that holds everywhere holds along every run. -/
theorem along_of_forall {P : σ → α → Prop} (hP : ∀ s a, P s a) (s : σ) (as : List α) :
    Along step P s as := by
  induction as generalizing s with
  | nil => trivial
  | cons a as ih => exact along_cons.2 ⟨hP s a, fun t _ => ih t⟩

/-- **The invariant rule.** -/
theorem exec_invariant {I : σ → Prop} (hstep : ∀ s a t, I s → step s a = some t → I t)
    {s t : σ} {as : List α} (hs : I s) (h : exec step s as = some t) : I t :=
  exec_invariant_along (P := fun _ _ => True) (fun s a t hI _ => hstep s a t hI) hs
    (along_of_forall (fun _ _ => trivial) s as) h

/-- **The measure rule.** Steps that meet a condition, and lower a measure
where an invariant holds, are no more than the measure says. -/
theorem exec_length_le {I : σ → Prop} {P : σ → α → Prop} {μ : σ → ℕ}
    (hstep : ∀ s a t, I s → P s a → step s a = some t → I t ∧ μ t < μ s) {s t : σ} {as : List α}
    (hs : I s) (hP : Along step P s as) (h : exec step s as = some t) : as.length + μ t ≤ μ s := by
  induction as generalizing s with
  | nil =>
    obtain rfl : s = t := Option.some.inj h
    exact Nat.le_of_eq (Nat.zero_add _)
  | cons a as ih =>
    obtain ⟨r, hr, h⟩ := exec_cons.1 h
    obtain ⟨ha, hP⟩ := along_cons.1 hP
    obtain ⟨hI, hlt⟩ := hstep s a r hs ha hr
    have hle := ih hI (hP r hr) h
    rw [List.length_cons]
    omega

/-- **The progress rule.** Where, until a goal is met, a step is possible
that meets a condition, and such steps lower a measure, a run of them meets
the goal. -/
theorem exists_exec_of_progress {I G : σ → Prop} {P : σ → α → Prop} {μ : σ → ℕ}
    (hstep : ∀ s a t, I s → P s a → step s a = some t → I t ∧ μ t < μ s)
    (hprogress : ∀ s, I s → ¬ G s → ∃ a t, P s a ∧ step s a = some t) {s : σ} (hs : I s) :
    ∃ as t, Along step P s as ∧ exec step s as = some t ∧ G t := by
  induction hn : μ s using Nat.strongRecOn generalizing s with
  | _ n ih =>
    by_cases hg : G s
    · exact ⟨[], s, trivial, rfl, hg⟩
    · obtain ⟨a, r, ha, hr⟩ := hprogress s hs hg
      obtain ⟨hI, hlt⟩ := hstep s a r hs ha hr
      obtain ⟨as, t, hP, h, hgoal⟩ := ih (μ r) (hn ▸ hlt) hI rfl
      refine ⟨a :: as, t, along_cons.2 ⟨ha, fun t' ht' => ?_⟩, exec_cons.2 ⟨r, hr, h⟩, hgoal⟩
      exact Option.some.inj (hr.symm.trans ht') ▸ hP

/-- A run that is taken up where another has led. -/
theorem exec_append {s r : σ} {as bs : List α} (h : exec step s as = some r) :
    exec step s (as ++ bs) = exec step r bs := by
  induction as generalizing s with
  | nil => rw [List.nil_append, Option.some.inj h]
  | cons a as ih =>
    obtain ⟨t, ht, h⟩ := exec_cons.1 h
    rw [List.cons_append, ← ih h, exec, ht, Option.bind_some]

/-- **The projection rule.** A system is seen through `view` as another, of
which each of its steps is a run, with the same labels. Then each of its
runs is a run of the other, with the same labels in the same order. -/
theorem exec_projects {τ β γ : Type*} {step' : τ → β → Option τ} {view : σ → τ}
    {label : α → Option γ} {label' : β → Option γ}
    (hstep : ∀ s a t, step s a = some t →
      ∃ bs, exec step' (view s) bs = some (view t) ∧ bs.filterMap label' = (label a).toList)
    {s t : σ} {as : List α} (h : exec step s as = some t) :
    ∃ bs, exec step' (view s) bs = some (view t) ∧
      bs.filterMap label' = as.filterMap label := by
  induction as generalizing s with
  | nil =>
    obtain rfl : s = t := Option.some.inj h
    exact ⟨[], rfl, rfl⟩
  | cons a as ih =>
    obtain ⟨r, hr, h⟩ := exec_cons.1 h
    obtain ⟨bs, hbs, hlabel⟩ := hstep s a r hr
    obtain ⟨cs, hcs, hlabel'⟩ := ih h
    refine ⟨bs ++ cs, (exec_append hbs).trans hcs, ?_⟩
    rw [List.filterMap_append, hlabel, hlabel']
    cases hl : label a <;> simp [hl]

end

end ZeroTouch
