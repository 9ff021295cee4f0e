import Mathlib.Order.Basic
import Mathlib.Data.List.Sort

/-!
# Sorting by a key

`sortedBy key l` is Python's `sorted(l, key=key)`. The sort is stable; with `reverse=True`
it still is, so that one sorts by the key in the dual order.
-/

namespace Sorting
set_option autoImplicit false

universe u v
variable {α : Type u} {κ : Type v} [LinearOrder κ] {key : α → κ} {l : List α} {a b : α}

def sortedBy (key : α → κ) (l : List α) : List α := l.mergeSort fun a b => decide (key a ≤ key b)

/-- `sorted(l, key=key, reverse=True)` -/
def sortedByDesc (key : α → κ) (l : List α) : List α :=
  sortedBy (fun a => OrderDual.toDual (key a)) l

theorem key_trans (key : α → κ) (a b c : α) (hab : decide (key a ≤ key b) = true)
    (hbc : decide (key b ≤ key c) = true) : decide (key a ≤ key c) = true := by
  rw [decide_eq_true_eq] at hab hbc ⊢
  exact hab.trans hbc

theorem key_total (key : α → κ) (a b : α) :
    (decide (key a ≤ key b) || decide (key b ≤ key a)) = true := by
  rw [Bool.or_eq_true, decide_eq_true_eq, decide_eq_true_eq]
  exact le_total _ _

theorem sortedBy_perm (key : α → κ) (l : List α) : (sortedBy key l).Perm l :=
  List.mergeSort_perm l _

@[simp] theorem mem_sortedBy : a ∈ sortedBy key l ↔ a ∈ l := (sortedBy_perm key l).mem_iff

theorem sortedBy_pairwise (key : α → κ) (l : List α) :
    (sortedBy key l).Pairwise fun a b => key a ≤ key b := by
  have hsorted := List.pairwise_mergeSort (key_trans key) (key_total key) l
  exact hsorted.imp fun h => of_decide_eq_true h

/-- A list in the order of the key stays as it is. -/
theorem sortedBy_of_pairwise (h : l.Pairwise fun a b => key a ≤ key b) : sortedBy key l = l :=
  List.mergeSort_of_pairwise (h.imp fun hle => decide_eq_true hle)

theorem sortedBy_sortedBy (key : α → κ) (l : List α) :
    sortedBy key (sortedBy key l) = sortedBy key l :=
  sortedBy_of_pairwise (sortedBy_pairwise key l)

/-- Elements with one key keep their order. -/
theorem sortedBy_filter (key : α → κ) (l : List α) (k : κ) :
    (sortedBy key l).filter (fun a => key a = k) = l.filter fun a => key a = k := by
  have hequal : (l.filter fun a => key a = k).Pairwise
      fun a b => decide (key a ≤ key b) = true := by
    apply List.pairwise_of_forall_mem_list
    intro a ha b hb
    have hka : key a = k := by simpa using (List.mem_filter.mp ha).2
    have hkb : key b = k := by simpa using (List.mem_filter.mp hb).2
    rw [hka, hkb]
    exact decide_eq_true le_rfl
  have hsorted : (l.filter fun a => key a = k).Sublist (sortedBy key l) :=
    List.sublist_mergeSort (key_trans key) (key_total key) hequal List.filter_sublist
  have hfiltered := hsorted.filter fun a => key a = k
  simp only [List.filter_filter, Bool.and_self] at hfiltered
  have hlength := ((sortedBy_perm key l).filter fun a => key a = k).length_eq
  exact (hfiltered.eq_of_length hlength.symm).symm

/-- What comes first has the smaller key, or the same and came first before. -/
theorem pair_sublist_sortedBy (h : [a, b].Sublist (sortedBy key l)) :
    key a < key b ∨ (key a = key b ∧ [a, b].Sublist l) := by
  have hle : key a ≤ key b := by
    have hpair := (sortedBy_pairwise key l).sublist h
    simpa using hpair
  rcases lt_or_eq_of_le hle with hlt | heq
  · exact .inl hlt
  · refine .inr ⟨heq, ?_⟩
    have hkept := h.filter fun c => key c = key b
    rw [sortedBy_filter] at hkept
    simp only [List.filter_cons, heq, decide_true, if_true, List.filter_nil] at hkept
    exact hkept.trans List.filter_sublist

end Sorting
