import Mathlib.Data.List.Infix

/-!
# Patterns with wildcards

A pattern is a list of tokens, each standing for one character or for a run of any length.
A matcher that reads from the left has one alternative to remember: what fails behind a
later `any` also fails wherever an earlier `any` could have stopped instead. It says so by
giving up rather than by failing.
-/

namespace Globs
set_option autoImplicit false

inductive Token (α : Type*) where
  | any
  | one (accepts : α → Bool)

inductive Matches {α : Type*} : List (Token α) → List α → Prop where
  | nil : Matches [] []
  | one {accepts : α → Bool} {d : α} {p : List (Token α)} {s : List α} :
      accepts d = true → Matches p s → Matches (.one accepts :: p) (d :: s)
  | stop {p : List (Token α)} {s : List α} : Matches p s → Matches (.any :: p) s
  | skip {d : α} {p : List (Token α)} {s : List α} :
      Matches (.any :: p) s → Matches (.any :: p) (d :: s)

/-- The answers of a matcher; `noWildcardMatch` gives up. -/
inductive Verdict where
  | isMatch
  | noMatch
  | noWildcardMatch
deriving DecidableEq

section
variable {α : Type*} {p : List (Token α)} {s t : List α} {d : α} {f : α → Bool} {v : Verdict}

theorem matches_nil : Matches [] s ↔ s = [] := by
  constructor
  · intro h
    cases h
    rfl
  · rintro rfl
    exact .nil

theorem matches_one :
    Matches (.one f :: p) s ↔ ∃ d t, s = d :: t ∧ f d = true ∧ Matches p t := by
  constructor
  · intro h
    cases h with
    | one hf h => exact ⟨_, _, rfl, hf, h⟩
  · rintro ⟨d, t, rfl, hf, h⟩
    exact .one hf h

theorem Matches.drop (hts : t <:+ s) (h : Matches (.any :: p) t) : Matches (.any :: p) s := by
  obtain ⟨front, rfl⟩ := hts
  induction front with
  | nil => exact h
  | cons d front ih => exact .skip ih

theorem exists_of_matches_any (h : Matches (.any :: p) s) : ∃ t, t <:+ s ∧ Matches p t := by
  generalize hq : Token.any :: p = q at h
  induction h with
  | nil => cases hq
  | one => cases hq
  | stop h =>
    cases hq
    exact ⟨_, List.suffix_rfl, h⟩
  | skip h ih =>
    obtain ⟨t, ht, hmatch⟩ := ih hq
    exact ⟨t, ht.trans (List.suffix_cons ..), hmatch⟩

theorem matches_any : Matches (.any :: p) s ↔ ∃ t, t <:+ s ∧ Matches p t := by
  constructor
  · exact exists_of_matches_any
  · intro h
    obtain ⟨t, ht, hmatch⟩ := h
    exact (Matches.stop hmatch).drop ht

theorem matches_all (s : List α) : Matches [.any] s :=
  matches_any.mpr ⟨[], List.nil_suffix, .nil⟩

theorem matches_any_any : Matches (.any :: .any :: p) s ↔ Matches (.any :: p) s := by
  constructor
  · intro h
    obtain ⟨t, ht, hmatch⟩ := matches_any.mp h
    exact hmatch.drop ht
  · exact .stop

/-- A token that takes every character may be matched before the run in front of it. -/
theorem matches_any_one (hf : ∀ d, f d = true) :
    Matches (.any :: .one f :: p) (d :: s) ↔ Matches (.any :: p) s := by
  constructor
  · intro h
    obtain ⟨t, ht, hmatch⟩ := matches_any.mp h
    obtain ⟨e, u, rfl, -, hu⟩ := matches_one.mp hmatch
    apply (Matches.stop hu).drop
    cases List.suffix_cons_iff.mp ht with
    | inl heq => exact (List.cons.inj heq).2 ▸ List.suffix_rfl
    | inr hsuffix => exact (List.suffix_cons e u).trans hsuffix
  · intro h
    induction s generalizing d with
    | nil =>
      cases h with
      | stop h => exact .stop (.one (hf d) h)
    | cons e s ih =>
      cases h with
      | stop h => exact .stop (.one (hf d) h)
      | skip h => exact .skip (ih h)

/-- The pattern matches no end of the text. -/
def Hopeless (p : List (Token α)) (s : List α) : Prop := ∀ t, t <:+ s → ¬ Matches p t

theorem hopeless_iff : Hopeless p s ↔ ¬ Matches (.any :: p) s := by
  simp only [Hopeless, matches_any, not_exists, not_and]

theorem Hopeless.one (h : Hopeless p s) : Hopeless (.one f :: p) (d :: s) := by
  intro t ht hmatch
  obtain ⟨e, u, rfl, -, hu⟩ := matches_one.mp hmatch
  apply h u _ hu
  cases List.suffix_cons_iff.mp ht with
  | inl heq => exact (List.cons.inj heq).2 ▸ List.suffix_rfl
  | inr hsuffix => exact (List.suffix_cons e u).trans hsuffix

theorem hopeless_nil : Hopeless (.one f :: p) ([] : List α) := by
  intro t ht hmatch
  obtain ⟨d, u, rfl, -⟩ := matches_one.mp hmatch
  cases List.suffix_nil.mp ht

/-- What a verdict says about the pattern and the text it was given for. -/
def Decides (p : List (Token α)) (s : List α) : Verdict → Prop
  | .isMatch => Matches p s
  | .noMatch => ¬ Matches p s
  | .noWildcardMatch => Hopeless p s

theorem Decides.isMatch_iff (h : Decides p s v) : v = .isMatch ↔ Matches p s := by
  cases v with
  | isMatch => exact iff_of_true rfl h
  | noMatch => exact iff_of_false nofun h
  | noWildcardMatch => exact iff_of_false nofun (h s List.suffix_rfl)

theorem Decides.one (hf : f d = true) (h : Decides p s v) :
    Decides (.one f :: p) (d :: s) v := by
  cases v with
  | isMatch => exact Matches.one hf h
  | noMatch =>
    intro hmatch
    cases hmatch with
    | one _ hmatch => exact h hmatch
  | noWildcardMatch => exact Hopeless.one h

theorem decides_refused (hf : f d = false) : Decides (.one f :: p) (d :: s) .noMatch := by
  intro hmatch
  cases hmatch with
  | one hd => simp [hf] at hd

theorem decides_short : Decides (.one f :: p) ([] : List α) .noMatch :=
  hopeless_nil [] List.suffix_rfl

theorem decides_never {v : Verdict} (hf : ∀ d, f d = false) (hv : v ≠ .isMatch) :
    Decides (.one f :: p) s v := by
  have hnone : ∀ t, ¬ Matches (.one f :: p) t := by
    intro t hmatch
    cases hmatch with
    | one hd => simp [hf] at hd
  cases v with
  | isMatch => exact absurd rfl hv
  | noMatch => exact hnone s
  | noWildcardMatch => exact fun t _ => hnone t

/-- The verdict on a pattern with a run in front; such a matcher never just fails. -/
def Settles (p : List (Token α)) (s : List α) (v : Verdict) : Prop :=
  Decides (.any :: p) s v ∧ v ≠ .noMatch

theorem settles_isMatch : Settles p s .isMatch ↔ Matches (.any :: p) s := by
  simp [Settles, Decides]

theorem settles_noWildcardMatch : Settles p s .noWildcardMatch ↔ ¬ Matches (.any :: p) s := by
  simp [Settles, Decides, hopeless_iff, matches_any_any]

theorem Settles.congr {q : List (Token α)} (h : Matches (.any :: p) s ↔ Matches (.any :: q) t) :
    Settles p s v ↔ Settles q t v := by
  cases v with
  | isMatch => rw [settles_isMatch, settles_isMatch, h]
  | noMatch => simp [Settles]
  | noWildcardMatch => rw [settles_noWildcardMatch, settles_noWildcardMatch, h]

theorem settles_any : Settles (.any :: p) s v ↔ Settles p s v := Settles.congr matches_any_any

theorem settles_one (hf : ∀ d, f d = true) :
    Settles (.one f :: p) (d :: s) v ↔ Settles p s v := Settles.congr (matches_any_one hf)

theorem settles_end (h : ¬ Matches p []) : Settles p [] .noWildcardMatch := by
  rw [settles_noWildcardMatch]
  intro hmatch
  cases hmatch with
  | stop hmatch => exact h hmatch

theorem settles_all (s : List α) : Settles [] s .isMatch := settles_isMatch.mpr (matches_all s)

theorem Decides.settles (h : Decides p s v) (hv : v ≠ .noMatch) : Settles p s v := by
  cases v with
  | isMatch => exact settles_isMatch.mpr (.stop h)
  | noMatch => exact absurd rfl hv
  | noWildcardMatch => exact settles_noWildcardMatch.mpr (hopeless_iff.mp h)

theorem Settles.cons (hhere : ¬ Matches p (d :: s)) (h : Settles p s v) :
    Settles p (d :: s) v := by
  refine (Settles.congr ?_).mp h
  constructor
  · exact .skip
  · intro hmatch
    cases hmatch with
    | stop hmatch => exact absurd hmatch hhere
    | skip hmatch => exact hmatch

theorem Settles.dropWhile {g : α → Bool} (hg : ∀ d, g d = true → f d = false)
    (h : Settles (.one f :: p) (s.dropWhile g) v) : Settles (.one f :: p) s v := by
  induction s with
  | nil => exact h
  | cons d s ih =>
    by_cases hd : g d = true
    · rw [List.dropWhile_cons_of_pos hd] at h
      apply Settles.cons _ (ih h)
      exact decides_refused (hg d hd)
    · rwa [List.dropWhile_cons_of_neg hd] at h

/-- A search for `f` stops where what comes behind it matches, or gives up there. -/
theorem Settles.here (hf : f d = true) (h : Decides p s v) (hv : v ≠ .noMatch) :
    Settles (.one f :: p) (d :: s) v := (h.one hf).settles hv

theorem Settles.further (h : Decides p s .noMatch) (hrest : Settles (.one f :: p) s v) :
    Settles (.one f :: p) (d :: s) v := by
  apply Settles.cons _ hrest
  intro hmatch
  cases hmatch with
  | one _ hmatch => exact h hmatch

end

end Globs
