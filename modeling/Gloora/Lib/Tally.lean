import Mathlib.Data.List.Count

/-!
# Dictionaries of counts

A dictionary `d` filled by `d[k] = d.get(k, 0) + 1`, as the list of its entries in
insertion order. Reading a key after any number of such steps counts its occurrences.
-/

namespace Tally
set_option autoImplicit false

universe u
variable {κ : Type u} [BEq κ]

def get : List (κ × Nat) → κ → Nat
  | [], _ => 0
  | (k', n) :: d, k => if k' == k then n else get d k

def bump : List (κ × Nat) → κ → List (κ × Nat)
  | [], k => [(k, 1)]
  | (k', n) :: d, k => if k' == k then (k', n + 1) :: d else (k', n) :: bump d k

def bumpAll (d : List (κ × Nat)) (ks : List κ) : List (κ × Nat) := ks.foldl bump d

variable [LawfulBEq κ]

theorem get_bump (d : List (κ × Nat)) (k j : κ) :
    get (bump d k) j = get d j + if k == j then 1 else 0 := by
  induction d with
  | nil => simp [bump, get]
  | cons e d ih =>
    obtain ⟨k', n⟩ := e
    by_cases hk : k' = k
    · subst hk
      by_cases hj : k' = j <;> simp [bump, get, hj]
    · by_cases hj : k' = j
      · subst hj
        simp [bump, get, hk, Ne.symm hk]
      · simp [bump, get, hk, hj, ih]

theorem get_bumpAll (d : List (κ × Nat)) (ks : List κ) (j : κ) :
    get (bumpAll d ks) j = get d j + ks.count j := by
  induction ks generalizing d with
  | nil => simp [bumpAll]
  | cons k ks ih =>
    have hstep : bumpAll d (k :: ks) = bumpAll (bump d k) ks := rfl
    rw [hstep, ih, get_bump, List.count_cons]
    omega

end Tally
