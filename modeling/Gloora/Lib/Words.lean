import Mathlib.Data.List.Basic

/-!
# Words of a text

What splitting a list at its separators and joining the parts again keeps: the elements that
are no separators, and a part at the end.
-/

namespace Words
set_option autoImplicit false

universe u
variable {α : Type u} {p q : α → Bool} {s w : List α}

theorem flatten_splitOnP (p : α → Bool) (s : List α) :
    (s.splitOnP p).flatten = s.filter fun c => !p c := by
  induction s with
  | nil => rfl
  | cons c s ih =>
    rw [List.splitOnP_cons_eq_if_modifyHead]
    cases hc : p c with
    | true => simpa [hc] using ih
    | false =>
      cases hparts : s.splitOnP p with
      | nil => exact absurd hparts (List.splitOnP_ne_nil p s)
      | cons first rest =>
        rw [hparts] at ih
        simpa [hc] using ih

/-- The last part goes on to the end. -/
theorem splitOnP_append (hw : ∀ c ∈ w, p c = false) (s : List α) :
    ∃ front last, (s ++ w).splitOnP p = front ++ [last ++ w] := by
  induction s with
  | nil => exact ⟨[], [], by simpa using List.splitOnP_eq_singleton hw⟩
  | cons c s ih =>
    obtain ⟨front, last, hparts⟩ := ih
    rw [List.cons_append, List.splitOnP_cons_eq_if_modifyHead, hparts]
    cases hc : p c with
    | true => exact ⟨[] :: front, last, by simp⟩
    | false =>
      cases front with
      | nil => exact ⟨[], c :: last, by simp⟩
      | cons first rest => exact ⟨(c :: first) :: rest, last, by simp⟩

theorem intercalate_append_last (sep last w : List α) (front : List (List α)) :
    ∃ joined, sep.intercalate (front ++ [last ++ w]) = joined ++ w := by
  induction front with
  | nil => exact ⟨last, by simp⟩
  | cons first rest ih =>
    obtain ⟨joined, hjoined⟩ := ih
    refine ⟨first ++ sep ++ joined, ?_⟩
    rw [List.cons_append, List.intercalate_cons_of_ne_nil (by simp), hjoined]
    simp

theorem filter_intercalate {sep : List α} (hsep : ∀ c ∈ sep, q c = false) (parts : List (List α)) :
    (sep.intercalate parts).filter q = parts.flatten.filter q := by
  have hnone : sep.filter q = [] := by simpa [List.filter_eq_nil_iff] using hsep
  induction parts with
  | nil => rfl
  | cons first rest ih =>
    cases rest with
    | nil => simp
    | cons second rest =>
      rw [List.intercalate_cons_cons, List.flatten_cons, List.filter_append, List.filter_append,
        List.filter_append, hnone, ih, List.append_nil]

/-- What stands in front of a separator, and what behind its first occurrence. -/
theorem append_cons_inj {c : α} {a b x y : List α} (ha : c ∉ a) (hb : c ∉ b) :
    a ++ c :: x = b ++ c :: y ↔ a = b ∧ x = y := by
  induction a generalizing b with
  | nil =>
    cases b with
    | nil => simp
    | cons d b =>
      have hd : c ≠ d := List.ne_of_not_mem_cons hb
      simp [hd]
  | cons d a ih =>
    have hd : c ≠ d := List.ne_of_not_mem_cons ha
    cases b with
    | nil => simp [hd.symm]
    | cons e b =>
      rw [List.cons_append, List.cons_append, List.cons.injEq, List.cons.injEq,
        ih (List.not_mem_of_not_mem_cons ha) (List.not_mem_of_not_mem_cons hb), and_assoc]

end Words
