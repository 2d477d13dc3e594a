import Mathlib.Data.List.Induction
import Mathlib.Data.List.Nodup
import Mathlib.Data.List.TakeDrop
/-!
# Lists that grow at the end

A record of what has happened is a list with the latest last. Here is
what an element at the end does to such a list, and when a record with
numbers is part of the list it is numbered by.
-/

namespace ZeroTouch

/-- Where an element of a list with a last one stands: at the end, or
before it. -/
theorem cases_snoc {α : Type*} {l before rest : List α} {a b : α}
    (h : l ++ [a] = before ++ b :: rest) :
    (l = before ∧ a = b) ∨ ∃ rest', l = before ++ b :: rest' := by
  rcases List.eq_nil_or_concat rest with rfl | ⟨rest, c, rfl⟩
  · obtain ⟨hl, ha⟩ := List.append_inj' h rfl
    exact .inl ⟨hl, List.head_eq_of_cons_eq ha⟩
  · have h' : l ++ [a] = (before ++ b :: rest) ++ [c] := by simpa using h
    exact .inr ⟨rest, (List.append_inj' h' rfl).1⟩

theorem nodup_map_snoc {α β : Type*} {f : α → β} {l : List α} {a : α} (hl : (l.map f).Nodup)
    (ha : f a ∉ l.map f) : ((l ++ [a]).map f).Nodup := by
  rw [List.map_append, List.nodup_append]
  refine ⟨hl, by simp, ?_⟩
  rintro i hi j hj rfl
  simp only [List.map_cons, List.map_nil, List.mem_singleton] at hj
  exact ha (hj ▸ hi)

/-- **A record numbered by a list is a sublist of it**, where the numbers
go up. -/
theorem sublist_take_of_numbered {α : Type*} {l : List α} {log : List (ℕ × α)}
    (hget : ∀ e ∈ log, l[e.1]? = some e.2) (hinc : (log.map Prod.fst).Pairwise (· < ·)) {n : ℕ}
    (hn : ∀ e ∈ log, e.1 < n) : (log.map Prod.snd).Sublist (l.take n) := by
  -- from the last entry down: what comes before it lies before its number
  induction log using List.reverseRecOn generalizing n with
  | nil => exact List.nil_sublist _
  | append_singleton log e ih =>
    have hlast : l[e.1]? = some e.2 := hget e (by simp)
    rw [List.map_append, List.pairwise_append] at hinc
    have hlt : ∀ e' ∈ log, e'.1 < e.1 := fun e' he' =>
      hinc.2.2 e'.1 (List.mem_map_of_mem he') e.1 (by simp)
    have hsub := ih (fun e' he' => hget e' (List.mem_append_left _ he')) hinc.1 hlt
    have htake : l.take (e.1 + 1) = l.take e.1 ++ [e.2] := by
      rw [List.take_add_one, hlast]
      rfl
    have hpre : l.take (e.1 + 1) <+: l.take n := List.take_prefix_take_left (hn e (by simp))
    refine List.Sublist.trans ?_ hpre.sublist
    rw [htake, List.map_append]
    exact hsub.append_right _

theorem sublist_of_numbered {α : Type*} {l : List α} {log : List (ℕ × α)}
    (hget : ∀ e ∈ log, l[e.1]? = some e.2) (hinc : (log.map Prod.fst).Pairwise (· < ·)) :
    (log.map Prod.snd).Sublist l := by
  have hn : ∀ e ∈ log, e.1 < l.length := fun e he =>
    (List.getElem?_eq_some_iff.1 (hget e he)).1
  have := sublist_take_of_numbered hget hinc hn
  rwa [List.take_length] at this

end ZeroTouch
