import Mathlib.Data.List.Forall2
import Gloora.Lib.Keyed

/-!
# Two tables side by side

`Related R t t'` says that two tables have the same keys, row by row, and that `R` relates
their rows. A statement whose conditions cannot tell related rows apart keeps the tables
related, and a query finds related rows.
-/

namespace Keyed
set_option autoImplicit false

universe u v

namespace Table
variable {α : Type u} {β : Type v}

/-- One row beside the other: the same key, and related records. -/
def Beside (R : α → β → Prop) (r : Nat × α) (s : Nat × β) : Prop := r.1 = s.1 ∧ R r.2 s.2

structure Related (R : α → β → Prop) (t : Table α) (t' : Table β) : Prop where
  rows : List.Forall₂ (Beside R) t.rows t'.rows
  seq : t.seq = t'.seq

variable {R : α → β → Prop} {t : Table α} {t' : Table β} {p : Nat → α → Bool} {q : Nat → β → Bool}

theorem related_empty (R : α → β → Prop) : Related R .empty .empty := ⟨.nil, rfl⟩

namespace Related
variable (h : Related R t t')
include h

theorem insert {a : α} {b : β} (hab : R a b) : Related R (t.insert a) (t'.insert b) where
  rows := List.rel_append h.rows (.cons ⟨congrArg Nat.succ h.seq, hab⟩ .nil)
  seq := congrArg Nat.succ h.seq

theorem delete (hpq : ∀ id a b, R a b → p id a = q id b) :
    Related R (t.delete p) (t'.delete q) where
  rows := by
    refine List.rel_filter ?_ h.rows
    intro r s hrs
    change (!p r.1 r.2) = true ↔ (!q s.1 s.2) = true
    rw [hrs.1, hpq s.1 r.2 s.2 hrs.2]
  seq := h.seq

theorem update {f : α → α} {g : β → β} (hpq : ∀ id a b, R a b → p id a = q id b)
    (hfg : ∀ a b, R a b → R (f a) (g b)) : Related R (t.update p f) (t'.update q g) where
  rows := by
    refine List.rel_map ?_ h.rows
    intro r s hrs
    refine ⟨hrs.1, ?_⟩
    change R (if p r.1 r.2 then f r.2 else r.2) (if q s.1 s.2 then g s.2 else s.2)
    rw [hrs.1, hpq s.1 r.2 s.2 hrs.2]
    split
    · exact hfg r.2 s.2 hrs.2
    · exact hrs.2
  seq := h.seq

end Related

/-- Related options are both empty or both full. -/
theorem rel_cases {S : α → β → Prop} {x : Option α} {y : Option β} (h : Option.Rel S x y) :
    x = none ∧ y = none ∨ ∃ a b, x = some a ∧ y = some b ∧ S a b := by
  cases h with
  | none => exact .inl ⟨rfl, rfl⟩
  | some hab => exact .inr ⟨_, _, rfl, rfl, hab⟩

theorem rel_find? {rs : List (Nat × α)} {ss : List (Nat × β)} {p : Nat × α → Bool}
    {q : Nat × β → Bool} (h : List.Forall₂ (Beside R) rs ss)
    (hpq : ∀ r s, Beside R r s → p r = q s) :
    Option.Rel (Beside R) (rs.find? p) (ss.find? q) := by
  induction h with
  | nil => exact .none
  | @cons r s rs ss hrs _ ih =>
    rw [List.find?_cons, List.find?_cons, hpq r s hrs]
    cases q s with
    | true => exact .some hrs
    | false => exact ih

namespace Related
variable (h : Related R t t')
include h

theorem first? {p : α → Bool} {q : β → Bool} (hpq : ∀ a b, R a b → p a = q b) :
    Option.Rel (Beside R) (t.first? p) (t'.first? q) :=
  rel_find? h.rows fun r s hrs => hpq r.2 s.2 hrs.2

theorem isSome_first? {p : α → Bool} {q : β → Bool} (hpq : ∀ a b, R a b → p a = q b) :
    (t.first? p).isSome = (t'.first? q).isSome := by
  rcases rel_cases (h.first? hpq) with ⟨hr, hs⟩ | ⟨r, s, hr, hs, -⟩
  · rw [hr, hs]
    rfl
  · rw [hr, hs]
    rfl

theorem find? (id : Nat) : Option.Rel R (t.find? id) (t'.find? id) := by
  have hrel : Option.Rel (Beside R) (t.rows.find? fun r => r.1 == id)
      (t'.rows.find? fun s => s.1 == id) := by
    refine rel_find? h.rows ?_
    intro r s hrs
    rw [hrs.1]
  unfold Table.find?
  rcases rel_cases hrel with ⟨hr, hs⟩ | ⟨r, s, hr, hs, hrs⟩
  · rw [hr, hs]
    exact .none
  · rw [hr, hs]
    exact .some hrs.2

theorem hasKey (id : Nat) : t.HasKey id ↔ t'.HasKey id := by
  rw [← not_iff_not, ← find?_eq_none, ← find?_eq_none]
  rcases rel_cases (h.find? id) with ⟨hr, hs⟩ | ⟨r, s, hr, hs, -⟩
  · simp only [hr, hs]
  · simp only [hr, hs, reduceCtorEq]

theorem isEmpty : t.rows.isEmpty = t'.rows.isEmpty := by
  have hrows := h.rows
  generalize t.rows = rs at hrows
  generalize t'.rows = ss at hrows
  cases hrows with
  | nil => rfl
  | cons _ _ => rfl

end Related

end Table

end Keyed
