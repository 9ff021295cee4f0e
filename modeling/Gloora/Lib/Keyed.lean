import Mathlib.Data.List.Nodup

/-!
# Tables with a key that is never used twice

`Table α` is a table with an `INTEGER PRIMARY KEY AUTOINCREMENT` column and a record
`α` for the other columns. `seq` is the largest key ever given out. The two fields on
keys make the table well formed by construction: keys ascend in the order of insertion
and stay at or below `seq`, so an insertion always takes a key that no row ever had.
-/

namespace Keyed
set_option autoImplicit false

universe u v

structure Table (α : Type u) where
  rows : List (Nat × α)
  seq : Nat
  ascending : rows.Pairwise fun r s => r.1 < s.1
  bounded : ∀ r ∈ rows, r.1 ≤ seq

namespace Table
variable {α : Type u}

def empty : Table α where
  rows := []
  seq := 0
  ascending := .nil
  bounded := by simp

/-- `INSERT`; the new key is `(t.insert a).seq`. -/
def insert (t : Table α) (a : α) : Table α where
  rows := t.rows ++ [(t.seq + 1, a)]
  seq := t.seq + 1
  ascending := by
    rw [List.pairwise_append]
    refine ⟨t.ascending, by simp, ?_⟩
    intro r hr s hs
    obtain rfl : s = (t.seq + 1, a) := by simpa using hs
    exact Nat.lt_succ_of_le (t.bounded r hr)
  bounded := by
    intro r hr
    rcases List.mem_append.mp hr with hr | hr
    · exact Nat.le_succ_of_le (t.bounded r hr)
    · obtain rfl : r = (t.seq + 1, a) := by simpa using hr
      exact Nat.le_refl _

/-- `DELETE ... WHERE`, which leaves `seq` alone. -/
def delete (t : Table α) (p : Nat → α → Bool) : Table α where
  rows := t.rows.filter fun r => !p r.1 r.2
  seq := t.seq
  ascending := t.ascending.filter _
  bounded := fun r hr => t.bounded r (List.mem_filter.mp hr).1

/-- `UPDATE ... SET ... WHERE`; keys are never changed. -/
def update (t : Table α) (p : Nat → α → Bool) (f : α → α) : Table α where
  rows := t.rows.map fun r => (r.1, if p r.1 r.2 then f r.2 else r.2)
  seq := t.seq
  ascending := List.pairwise_map.mpr t.ascending
  bounded := by
    intro r hr
    obtain ⟨s, hs, rfl⟩ := List.mem_map.mp hr
    exact t.bounded s hs

/-- `SELECT ... WHERE id=?`, then `fetchone`. -/
def find? (t : Table α) (id : Nat) : Option α :=
  (t.rows.find? fun r => r.1 == id).map Prod.snd

/-- `SELECT ... WHERE`, then `fetchone`: the first row, with its key. -/
def first? (t : Table α) (p : α → Bool) : Option (Nat × α) :=
  t.rows.find? fun r => p r.2

/-- `SELECT ... WHERE`, then `fetchall`. -/
def select (t : Table α) (p : α → Bool) : List α :=
  (t.rows.map Prod.snd).filter p

def HasKey (t : Table α) (id : Nat) : Prop := ∃ a, (id, a) ∈ t.rows

instance (t : Table α) (id : Nat) : Decidable (t.HasKey id) :=
  decidable_of_iff (id ∈ t.rows.map Prod.fst) (by simp [HasKey])

variable {t : Table α} {p : Nat → α → Bool} {f : α → α} {id : Nat} {a b : α}

@[simp] theorem rows_empty : (empty : Table α).rows = [] := rfl

@[simp] theorem mem_insert : (id, b) ∈ (t.insert a).rows ↔
    (id, b) ∈ t.rows ∨ (id = t.seq + 1 ∧ b = a) := by
  simp [insert]

@[simp] theorem mem_delete : (id, a) ∈ (t.delete p).rows ↔ (id, a) ∈ t.rows ∧ p id a = false := by
  simp [delete]

theorem mem_delete_of_not (h : p id a = false) : (id, a) ∈ (t.delete p).rows ↔ (id, a) ∈ t.rows := by
  rw [mem_delete, and_iff_left h]

theorem mem_update : (id, b) ∈ (t.update p f).rows ↔
    ∃ a, (id, a) ∈ t.rows ∧ b = if p id a then f a else a := by
  constructor
  · intro h
    obtain ⟨⟨k, a⟩, hr, heq⟩ := List.mem_map.mp h
    obtain ⟨rfl, rfl⟩ := Prod.mk.inj heq
    exact ⟨a, hr, rfl⟩
  · rintro ⟨a, hr, rfl⟩
    exact List.mem_map.mpr ⟨(id, a), hr, rfl⟩

theorem le_seq (h : (id, a) ∈ t.rows) : id ≤ t.seq := t.bounded _ h

theorem mem_unique (ha : (id, a) ∈ t.rows) (hb : (id, b) ∈ t.rows) : a = b := by
  have hkeys : (t.rows.map Prod.fst).Nodup :=
    List.pairwise_map.mpr (t.ascending.imp fun h => Nat.ne_of_lt h)
  have hrow : (id, a) = (id, b) := List.inj_on_of_nodup_map hkeys ha hb rfl
  exact (Prod.mk.inj hrow).2

theorem find?_eq_some : t.find? id = some a ↔ (id, a) ∈ t.rows := by
  constructor
  · intro h
    obtain ⟨⟨k, b⟩, hfind, rfl⟩ := Option.map_eq_some_iff.mp h
    have hk : k = id := by simpa using List.find?_some hfind
    exact hk ▸ List.mem_of_find?_eq_some hfind
  · intro h
    cases hfind : t.rows.find? fun r => r.1 == id with
    | none => simpa using List.find?_eq_none.mp hfind _ h
    | some r =>
      obtain ⟨k, b⟩ := r
      have hk : k = id := by simpa using List.find?_some hfind
      subst hk
      have hb : (k, b) ∈ t.rows := List.mem_of_find?_eq_some hfind
      simp [find?, hfind, mem_unique hb h]

theorem find?_eq_none : t.find? id = none ↔ ¬ t.HasKey id := by
  rw [Option.eq_none_iff_forall_ne_some]
  simp [HasKey, find?_eq_some]

theorem first?_mem {q : α → Bool} {r : Nat × α} (h : t.first? q = some r) :
    (r.1, r.2) ∈ t.rows ∧ q r.2 = true :=
  ⟨List.mem_of_find?_eq_some h, by simpa using List.find?_some h⟩

theorem exists_first? {q : α → Bool} (ha : (id, a) ∈ t.rows) (hq : q a = true) :
    ∃ r, t.first? q = some r :=
  Option.isSome_iff_exists.mp (List.find?_isSome.mpr ⟨(id, a), ha, hq⟩)

@[simp] theorem mem_select {q : α → Bool} : a ∈ t.select q ↔ (∃ id, (id, a) ∈ t.rows) ∧ q a := by
  simp [select]

theorem select_insert (q : α → Bool) :
    (t.insert a).select q = t.select q ++ if q a then [a] else [] := by
  simp [select, insert, List.filter_append, List.filter_singleton]

theorem select_delete (g q : α → Bool) :
    (t.delete fun _ a => g a).select q = (t.select q).filter fun a => !g a := by
  simp only [select, delete, List.filter_map, List.filter_filter]
  apply congrArg
  apply List.filter_congr
  intro r _
  exact Bool.and_comm _ _

theorem select_sublist {t' : Table α} (h : t'.rows.Sublist t.rows) (q : α → Bool) :
    (t'.select q).Sublist (t.select q) :=
  (h.map Prod.snd).filter q

theorem length_select_le {q r : α → Bool} (h : ∀ id a, (id, a) ∈ t.rows → q a → r a) :
    (t.select q).length ≤ (t.select r).length := by
  rw [select, select, ← List.countP_eq_length_filter, ← List.countP_eq_length_filter]
  apply List.countP_mono_left
  intro a ha
  obtain ⟨⟨id, a⟩, hr, rfl⟩ := List.mem_map.mp ha
  exact h id a hr

theorem not_hasKey_of_lt (h : t.seq < id) : ¬ t.HasKey id := by
  intro h'
  obtain ⟨a, ha⟩ := h'
  exact Nat.not_lt.mpr (le_seq ha) h

theorem hasKey_insert : (t.insert a).HasKey id ↔ t.HasKey id ∨ id = t.seq + 1 := by
  simp [HasKey, exists_or]

theorem hasKey_update : (t.update p f).HasKey id ↔ t.HasKey id := by
  constructor
  · intro h
    obtain ⟨b, hb⟩ := h
    obtain ⟨a, ha, _⟩ := mem_update.mp hb
    exact ⟨a, ha⟩
  · intro h
    obtain ⟨a, ha⟩ := h
    exact ⟨_, mem_update.mpr ⟨a, ha, rfl⟩⟩

section Evolves
variable {R : α → α → Prop} {t t' u : Table α}

/-- A later state of the table: no key is given out twice, and a row that is still there has
changed by `R` at most. -/
structure Evolves (R : α → α → Prop) (t t' : Table α) : Prop where
  seq : t.seq ≤ t'.seq
  rows : ∀ id b, (id, b) ∈ t'.rows → id ≤ t.seq → ∃ a, (id, a) ∈ t.rows ∧ R a b

theorem Evolves.refl (hR : ∀ a, R a a) (t : Table α) : Evolves R t t :=
  ⟨Nat.le_refl _, fun _ a ha _ => ⟨a, ha, hR a⟩⟩

theorem Evolves.trans (hR : ∀ a b c, R a b → R b c → R a c) (ht : Evolves R t t')
    (hu : Evolves R t' u) : Evolves R t u := by
  refine ⟨Nat.le_trans ht.seq hu.seq, ?_⟩
  intro id c hc hid
  obtain ⟨b, hb, hbc⟩ := hu.rows id c hc (Nat.le_trans hid ht.seq)
  obtain ⟨a, ha, hab⟩ := ht.rows id b hb hid
  exact ⟨a, ha, hR a b c hab hbc⟩

theorem evolves_insert (hR : ∀ a, R a a) (t : Table α) (a : α) : Evolves R t (t.insert a) := by
  refine ⟨Nat.le_succ _, ?_⟩
  intro id b hb hid
  rcases mem_insert.mp hb with hold | ⟨rfl, _⟩
  · exact ⟨b, hold, hR b⟩
  · exact absurd hid (Nat.not_succ_le_self _)

theorem evolves_delete (hR : ∀ a, R a a) (t : Table α) (p : Nat → α → Bool) :
    Evolves R t (t.delete p) :=
  ⟨Nat.le_refl _, fun _ b hb _ => ⟨b, (mem_delete.mp hb).1, hR b⟩⟩

theorem evolves_update (hR : ∀ a, R a a) (hf : ∀ a, R a (f a)) (t : Table α) :
    Evolves R t (t.update p f) := by
  refine ⟨Nat.le_refl _, ?_⟩
  intro id b hb _
  obtain ⟨a, ha, rfl⟩ := mem_update.mp hb
  refine ⟨a, ha, ?_⟩
  split
  · exact hf a
  · exact hR a

/-- A row that is gone does not come back. -/
theorem Evolves.gone (h : Evolves R t t') (hid : id ≤ t.seq) (hgone : ¬ t.HasKey id) :
    ¬ t'.HasKey id := by
  rintro ⟨b, hb⟩
  obtain ⟨a, ha, -⟩ := h.rows id b hb hid
  exact hgone ⟨a, ha⟩

end Evolves

end Table

end Keyed
