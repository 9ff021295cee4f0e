import Mathlib.Data.List.Basic

/-!
# Backtracking matchers

A matcher returns every way to match a prefix of its input, in the order a backtracking
engine tries them: the value found and the input left over. `fullMatch` takes the first
way, as an unanchored `match` does, and then insists that nothing is left.
-/

namespace Matching
set_option autoImplicit false

universe u v w

def Matcher (α : Type u) := List Char → List (α × List Char)

variable {α : Type u} {β : Type v}

def char (cls : Char → Option α) : Matcher α
  | [] => []
  | c :: cs => match cls c with
    | none => []
    | some a => [(a, cs)]

def lit (c : Char) : Matcher Unit := char fun d => if d = c then some () else none

def andThen (m : Matcher α) (k : α → Matcher β) : Matcher β := fun s =>
  (m s).flatMap fun r => k r.1 r.2

def done (a : α) : Matcher α := fun s => [(a, s)]

/-- The alternatives of `(m|n)`, the left one first. -/
def orElse (m n : Matcher α) : Matcher α := fun s => m s ++ n s

/-- `[...]+`, greedy: the longest match is tried first. -/
def plus (p : Char → Bool) : Matcher Unit
  | [] => []
  | c :: cs => if p c then plus p cs ++ [((), cs)] else []

/-- `re.match` and the test that the match ends where the input does. -/
def fullMatch (m : Matcher α) (s : List Char) : Option α :=
  match m s with
  | (a, []) :: _ => some a
  | _ => none

@[simp] theorem char_nil (cls : Char → Option α) : char cls [] = [] := rfl

theorem char_cons (cls : Char → Option α) (c : Char) (cs : List Char) :
    char cls (c :: cs) = match cls c with
      | none => []
      | some a => [(a, cs)] := rfl

@[simp] theorem lit_self (c : Char) (cs : List Char) : lit c (c :: cs) = [((), cs)] := by
  simp [lit, char_cons]

@[simp] theorem done_apply (a : α) (s : List Char) : done a s = [(a, s)] := rfl

theorem andThen_single {m : Matcher α} {a : α} {s rest : List Char} (h : m s = [(a, rest)])
    (k : α → Matcher β) : andThen m k s = k a rest := by
  simp [andThen, h]

theorem done_andThen (a : α) (k : α → Matcher β) : andThen (done a) k = k a := by
  funext s
  exact andThen_single (done_apply a s) k

theorem andThen_assoc {γ : Type w} (m : Matcher α) (k : α → Matcher β) (l : β → Matcher γ) :
    andThen (andThen m k) l = andThen m fun a => andThen (k a) l := by
  funext s
  exact List.flatMap_assoc

theorem andThen_nil {m : Matcher α} {s : List Char} (h : m s = []) (k : α → Matcher β) :
    andThen m k s = [] := by
  simp [andThen, h]

/-- The first way decides when what follows rejects every other way. -/
theorem andThen_first {m : Matcher α} {a : α} {s rest : List Char}
    {others : List (α × List Char)} (h : m s = (a, rest) :: others) (k : α → Matcher β)
    (dead : ∀ r ∈ others, k r.1 r.2 = []) : andThen m k s = k a rest := by
  have hothers : (others.flatMap fun r => k r.1 r.2) = [] := List.flatMap_eq_nil_iff.mpr dead
  simp [andThen, h, hothers]

theorem plus_single {p : Char → Bool} {c d : Char} {cs : List Char} (hc : p c = true)
    (hd : p d = false) : plus p (c :: d :: cs) = [((), d :: cs)] := by
  simp [plus, hc, hd]

theorem fullMatch_of_head {m : Matcher α} {a : α} {s : List Char}
    {others : List (α × List Char)} (h : m s = (a, []) :: others) : fullMatch m s = some a := by
  simp [fullMatch, h]

def Yields (m : Matcher α) (P : α → Prop) : Prop := ∀ s, ∀ r ∈ m s, P r.1

theorem Yields.mono {m : Matcher α} {P Q : α → Prop} (h : Yields m P) (hpq : ∀ a, P a → Q a) :
    Yields m Q := fun s r hr => hpq _ (h s r hr)

theorem yields_char {cls : Char → Option α} {P : α → Prop} (h : ∀ c a, cls c = some a → P a) :
    Yields (char cls) P := by
  intro s r hr
  cases s with
  | nil => simp at hr
  | cons c cs =>
    rw [char_cons] at hr
    cases hc : cls c with
    | none => simp [hc] at hr
    | some a =>
      obtain rfl : r = (a, cs) := by simpa [hc] using hr
      exact h c a hc

theorem yields_done {a : α} {P : α → Prop} (h : P a) : Yields (done a) P := by
  intro s r hr
  obtain rfl : r = (a, s) := by simpa using hr
  exact h

theorem yields_andThen {m : Matcher α} {k : α → Matcher β} {P : α → Prop} {Q : β → Prop}
    (hm : Yields m P) (hk : ∀ a, P a → Yields (k a) Q) : Yields (andThen m k) Q := by
  intro s r hr
  obtain ⟨t, ht, hrt⟩ := List.mem_flatMap.mp hr
  exact hk t.1 (hm s t ht) t.2 r hrt

theorem yields_orElse {m n : Matcher α} {P : α → Prop} (hm : Yields m P) (hn : Yields n P) :
    Yields (orElse m n) P := by
  intro s r hr
  rcases List.mem_append.mp hr with h | h
  · exact hm s r h
  · exact hn s r h

theorem yields_true (m : Matcher α) : Yields m fun _ => True := fun _ _ _ => trivial

theorem fullMatch_yields {m : Matcher α} {P : α → Prop} (hm : Yields m P) {s : List Char} {a : α}
    (h : fullMatch m s = some a) : P a := by
  unfold fullMatch at h
  split at h
  · rename_i b rest heq
    obtain rfl : b = a := by simpa using h
    exact hm s _ (by rw [heq]; exact List.mem_cons_self)
  · simp at h

end Matching
