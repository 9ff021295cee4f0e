import Mathlib.Data.List.Infix
import Mathlib.Tactic.IntervalCases
import Gloora.Lib.PyText

/-!
# LIKE

SQLite's operator LIKE without ESCAPE, on texts that SQLite reads from UTF-8 up to the first
NUL. A pattern without wildcards between two `%` asks whether it occurs, up to the keys of
the characters.
-/

namespace Like
set_option autoImplicit false

open PyText

/-- What SQLite reads where a text has the character `c`. -/
def readChar (c : Char) : Char := if c.toNat = 0xfffe ∨ c.toNat = 0xffff then '\ufffd' else c

/-- LIKE takes characters for equal that have one key: it ignores the case of ASCII letters. -/
def likeKey (c : Char) : Char := (readChar c).toLower

def likeMatch : Text → Text → Bool
  | [], s => s.isEmpty
  | c :: p, s =>
    if c = '%' then s.tails.any fun rest => likeMatch p rest
    else
      match s with
      | [] => false
      | d :: s => (c = '_' || likeKey c == likeKey d) && likeMatch p s

def cString (s : Text) : Text := s.takeWhile fun c => c != '\x00'

/-- `s LIKE pattern` -/
def like (pattern s : Text) : Bool := likeMatch (cString pattern) (cString s)

example : like "%b_l%".toList "a Bell".toList = true := by decide

section Match
variable {p q s : Text} {c : Char}

theorem likeMatch_percent :
    likeMatch ('%' :: p) s = true ↔ ∃ rest, rest <:+ s ∧ likeMatch p rest = true := by
  rw [likeMatch.eq_def]
  simp only [if_true, List.any_eq_true, List.mem_tails]

theorem likeMatch_char (hc : c ≠ '%') :
    likeMatch (c :: p) s = true ↔
      ∃ d rest, s = d :: rest ∧ (c = '_' ∨ likeKey c = likeKey d) ∧ likeMatch p rest = true := by
  rw [likeMatch.eq_def]
  cases s with
  | nil => simp [hc]
  | cons d s => simp [hc]

theorem likeMatch_all (s : Text) : likeMatch ['%'] s = true :=
  likeMatch_percent.mpr ⟨[], List.nil_suffix, rfl⟩

/-- A pattern without wildcards. -/
def Plain (p : Text) : Prop := '%' ∉ p ∧ '_' ∉ p

theorem Plain.cons (h : Plain (c :: p)) : c ≠ '%' ∧ c ≠ '_' ∧ Plain p :=
  ⟨(List.ne_of_not_mem_cons h.1).symm, (List.ne_of_not_mem_cons h.2).symm,
    List.not_mem_of_not_mem_cons h.1, List.not_mem_of_not_mem_cons h.2⟩

theorem likeMatch_plain (h : Plain p) :
    likeMatch (p ++ q) s = true ↔
      ∃ u rest, s = u ++ rest ∧ u.map likeKey = p.map likeKey ∧ likeMatch q rest = true := by
  induction p generalizing s with
  | nil => simp
  | cons c p ih =>
    obtain ⟨hpercent, hline, hp⟩ := h.cons
    rw [List.cons_append, likeMatch_char hpercent]
    constructor
    · rintro ⟨d, rest, rfl, hkey, hrest⟩
      obtain ⟨u, tail, rfl, hkeys, htail⟩ := (ih hp).mp hrest
      refine ⟨d :: u, tail, rfl, ?_, htail⟩
      rw [List.map_cons, List.map_cons, hkeys, hkey.resolve_left hline]
    · rintro ⟨u, tail, rfl, hkeys, htail⟩
      cases u with
      | nil => cases hkeys
      | cons d u =>
        rw [List.map_cons, List.map_cons, List.cons.injEq] at hkeys
        exact ⟨d, u ++ tail, rfl, .inr hkeys.1.symm,
          (ih hp).mpr ⟨u, tail, rfl, hkeys.2, htail⟩⟩

theorem likeMatch_contains (h : Plain p) :
    likeMatch ('%' :: (p ++ ['%'])) s = true ↔
      ∃ u, u <:+: s ∧ u.map likeKey = p.map likeKey := by
  rw [likeMatch_percent]
  constructor
  · rintro ⟨rest, ⟨front, rfl⟩, hrest⟩
    obtain ⟨u, tail, rfl, hkeys, -⟩ := (likeMatch_plain h).mp hrest
    exact ⟨u, ⟨front, tail, by simp⟩, hkeys⟩
  · rintro ⟨u, ⟨front, tail, rfl⟩, hkeys⟩
    refine ⟨u ++ tail, ⟨front, by simp⟩, ?_⟩
    exact (likeMatch_plain h).mpr ⟨u, tail, rfl, hkeys, likeMatch_all tail⟩

/-- A wildcard may stand for one character, so that a pattern matches as many characters. -/
theorem likeMatch_map {f : Char → Char}
    (h : ∀ c ∈ p, c = '%' ∨ c = '_' ∨ likeKey c = likeKey (f c)) (hq : likeMatch q s = true) :
    likeMatch (p ++ q) (p.map f ++ s) = true := by
  induction p with
  | nil => exact hq
  | cons c p ih =>
    obtain ⟨hc, hp⟩ := List.forall_mem_cons.mp h
    by_cases hpercent : c = '%'
    · rw [hpercent]
      exact likeMatch_percent.mpr ⟨p.map f ++ s, ⟨[f '%'], rfl⟩, ih hp⟩
    · exact (likeMatch_char hpercent).mpr
        ⟨f c, p.map f ++ s, rfl, hc.resolve_left hpercent, ih hp⟩

end Match

section Lower
variable {s : Text} {c : Char}

/-- What holds of the capital letters of ASCII, and of the characters that `toLower` keeps. -/
theorem toLower_cases {P : Char → Char → Prop}
    (hletter : ∀ n, 65 ≤ n → n ≤ 90 → P (Char.ofNat n) (Char.ofNat n).toLower) (hself : ∀ c, P c c)
    (c : Char) : P c c.toLower := by
  by_cases hrange : c.val ≥ 'A'.val ∧ c.val ≤ 'Z'.val
  · have hc := hletter c.toNat hrange.1 hrange.2
    rwa [Char.ofNat_toNat] at hc
  · rw [toLower_eq_self hrange]
    exact hself c

theorem likeKey_toLower (c : Char) : likeKey c.toLower = likeKey c := by
  apply toLower_cases (P := fun c d => likeKey d = likeKey c)
  · intro n hlow hhigh
    interval_cases n <;> decide
  · exact fun c => rfl

theorem toLower_eq_nul : c.toLower = '\x00' ↔ c = '\x00' := by
  apply toLower_cases (P := fun c d => d = '\x00' ↔ c = '\x00')
  · intro n hlow hhigh
    interval_cases n <;> decide
  · exact fun c => Iff.rfl

theorem cString_eq (h : '\x00' ∉ s) : cString s = s := by
  rw [cString, List.takeWhile_eq_self_iff]
  intro c hc
  exact bne_iff_ne.mpr fun heq => h (heq ▸ hc)

theorem cString_append (h : '\x00' ∉ s) (rest : Text) : cString (s ++ '\x00' :: rest) = s := by
  have hall : ∀ c ∈ s, (c != '\x00') = true := fun c hc => bne_iff_ne.mpr fun heq => h (heq ▸ hc)
  rw [cString, List.takeWhile_append_of_pos hall]
  simp

theorem nul_mem_asciiLower : '\x00' ∈ asciiLower s ↔ '\x00' ∈ s := by
  simp [asciiLower, toLower_eq_nul]

theorem map_likeKey_asciiLower (s : Text) : (asciiLower s).map likeKey = s.map likeKey := by
  rw [asciiLower, List.map_map]
  exact List.map_congr_left fun c _ => likeKey_toLower c

/-- `LOWER(s) LIKE '%p%'` for a pattern without wildcards. -/
theorem like_lower_contains {p : Text} (hp : Plain p) (hpnul : '\x00' ∉ p) (hs : '\x00' ∉ s) :
    like ('%' :: (p ++ ['%'])) (asciiLower s) = true ↔
      ∃ u, u <:+: s ∧ u.map likeKey = p.map likeKey := by
  have hpattern : '\x00' ∉ '%' :: (p ++ ['%']) := by simp [hpnul]
  rw [like, cString_eq hpattern, cString_eq (nul_mem_asciiLower.not.mpr hs), likeMatch_contains hp]
  constructor
  · rintro ⟨u, ⟨front, back, hu⟩, hkeys⟩
    obtain ⟨s₁, s₂, rfl, h₁, hback⟩ := List.map_eq_append_iff.mp hu.symm
    obtain ⟨s₃, s₄, rfl, hfront, hmiddle⟩ := List.map_eq_append_iff.mp h₁
    refine ⟨s₄, ⟨s₃, s₂, rfl⟩, ?_⟩
    rw [← hkeys, ← hmiddle]
    exact (map_likeKey_asciiLower s₄).symm
  · rintro ⟨u, hu, hkeys⟩
    exact ⟨asciiLower u, hu.map _, (map_likeKey_asciiLower u).trans hkeys⟩

end Lower

end Like
