import Mathlib.Data.List.Basic
import Gloora.Lib.PyText

/-!
# Upper and lower case

`lower` is `str.lower` on texts (Unicode 15.1). `fold` is the simple case folding of Unicode, by
way of the lower case: characters that differ at most in case, and only these, have one fold.
-/

namespace LetterCase
set_option autoImplicit false

open PyText

/-- Every `step`-th code from `first` to `last` is mapped to the code `shift` above it. -/
structure CaseRange where
  first : Nat
  last : Nat
  step : Nat
  shift : Int

namespace CaseRange

def Holds (r : CaseRange) (n : Nat) : Prop :=
  r.first ≤ n ∧ n ≤ r.last ∧ (n - r.first) % r.step = 0

instance (r : CaseRange) (n : Nat) : Decidable (r.Holds n) := by unfold Holds; infer_instance

def image (r : CaseRange) (n : Nat) : Nat := (n + r.shift).toNat

/-- The images are codes of characters behind the capital letters of ASCII. -/
def letters (r : CaseRange) : Bool :=
  decide (0x61 ≤ r.first + r.shift) && (decide (r.last + r.shift < 0xd800) ||
    (decide (0xe000 ≤ r.first + r.shift) && decide (r.last + r.shift < 0x110000)))

/-- No image of `r` is a code that `q` maps: it lies outside, or in a gap between the codes. -/
def misses (r q : CaseRange) : Bool :=
  decide (q.last < r.first + r.shift) || decide (r.last + r.shift < q.first) ||
    (r.step == 2 && q.step == 2 && decide ((r.first + r.shift - q.first) % 2 = 1))

end CaseRange

def mapCode (ranges : List CaseRange) (n : Nat) : Nat :=
  match ranges.find? fun r => decide (r.Holds n) with
  | none => n
  | some r => r.image n

def mapChar (ranges : List CaseRange) (c : Char) : Char := Char.ofNat (mapCode ranges c.toNat)

section Tables

/-- The characters whose lower case is one other character. -/
def lowerRanges : List CaseRange :=
  [⟨0x41, 0x5a, 1, 32⟩, ⟨0xc0, 0xd6, 1, 32⟩, ⟨0xd8, 0xde, 1, 32⟩, ⟨0x100, 0x12e, 2, 1⟩,
   ⟨0x132, 0x136, 2, 1⟩, ⟨0x139, 0x147, 2, 1⟩, ⟨0x14a, 0x176, 2, 1⟩, ⟨0x178, 0x178, 2, -121⟩,
   ⟨0x179, 0x17d, 2, 1⟩, ⟨0x181, 0x181, 2, 210⟩, ⟨0x182, 0x184, 2, 1⟩, ⟨0x186, 0x186, 2, 206⟩,
   ⟨0x187, 0x187, 2, 1⟩, ⟨0x189, 0x18a, 1, 205⟩, ⟨0x18b, 0x18b, 2, 1⟩, ⟨0x18e, 0x18e, 2, 79⟩,
   ⟨0x18f, 0x18f, 2, 202⟩, ⟨0x190, 0x190, 2, 203⟩, ⟨0x191, 0x191, 2, 1⟩, ⟨0x193, 0x193, 2, 205⟩,
   ⟨0x194, 0x194, 2, 207⟩, ⟨0x196, 0x196, 2, 211⟩, ⟨0x197, 0x197, 2, 209⟩, ⟨0x198, 0x198, 2, 1⟩,
   ⟨0x19c, 0x19c, 2, 211⟩, ⟨0x19d, 0x19d, 2, 213⟩, ⟨0x19f, 0x19f, 2, 214⟩, ⟨0x1a0, 0x1a4, 2, 1⟩,
   ⟨0x1a6, 0x1a6, 2, 218⟩, ⟨0x1a7, 0x1a7, 2, 1⟩, ⟨0x1a9, 0x1a9, 2, 218⟩, ⟨0x1ac, 0x1ac, 2, 1⟩,
   ⟨0x1ae, 0x1ae, 2, 218⟩, ⟨0x1af, 0x1af, 2, 1⟩, ⟨0x1b1, 0x1b2, 1, 217⟩, ⟨0x1b3, 0x1b5, 2, 1⟩,
   ⟨0x1b7, 0x1b7, 2, 219⟩, ⟨0x1b8, 0x1b8, 2, 1⟩, ⟨0x1bc, 0x1bc, 2, 1⟩, ⟨0x1c4, 0x1c4, 2, 2⟩,
   ⟨0x1c5, 0x1c5, 2, 1⟩, ⟨0x1c7, 0x1c7, 2, 2⟩, ⟨0x1c8, 0x1c8, 2, 1⟩, ⟨0x1ca, 0x1ca, 2, 2⟩,
   ⟨0x1cb, 0x1db, 2, 1⟩, ⟨0x1de, 0x1ee, 2, 1⟩, ⟨0x1f1, 0x1f1, 2, 2⟩, ⟨0x1f2, 0x1f4, 2, 1⟩,
   ⟨0x1f6, 0x1f6, 2, -97⟩, ⟨0x1f7, 0x1f7, 2, -56⟩, ⟨0x1f8, 0x21e, 2, 1⟩, ⟨0x220, 0x220, 2, -130⟩,
   ⟨0x222, 0x232, 2, 1⟩, ⟨0x23a, 0x23a, 2, 10795⟩, ⟨0x23b, 0x23b, 2, 1⟩, ⟨0x23d, 0x23d, 2, -163⟩,
   ⟨0x23e, 0x23e, 2, 10792⟩, ⟨0x241, 0x241, 2, 1⟩, ⟨0x243, 0x243, 2, -195⟩, ⟨0x244, 0x244, 2, 69⟩,
   ⟨0x245, 0x245, 2, 71⟩, ⟨0x246, 0x24e, 2, 1⟩, ⟨0x370, 0x372, 2, 1⟩, ⟨0x376, 0x376, 2, 1⟩,
   ⟨0x37f, 0x37f, 2, 116⟩, ⟨0x386, 0x386, 2, 38⟩, ⟨0x388, 0x38a, 1, 37⟩, ⟨0x38c, 0x38c, 2, 64⟩,
   ⟨0x38e, 0x38f, 1, 63⟩, ⟨0x391, 0x3a1, 1, 32⟩, ⟨0x3a3, 0x3ab, 1, 32⟩, ⟨0x3cf, 0x3cf, 2, 8⟩,
   ⟨0x3d8, 0x3ee, 2, 1⟩, ⟨0x3f4, 0x3f4, 2, -60⟩, ⟨0x3f7, 0x3f7, 2, 1⟩, ⟨0x3f9, 0x3f9, 2, -7⟩,
   ⟨0x3fa, 0x3fa, 2, 1⟩, ⟨0x3fd, 0x3ff, 1, -130⟩, ⟨0x400, 0x40f, 1, 80⟩, ⟨0x410, 0x42f, 1, 32⟩,
   ⟨0x460, 0x480, 2, 1⟩, ⟨0x48a, 0x4be, 2, 1⟩, ⟨0x4c0, 0x4c0, 2, 15⟩, ⟨0x4c1, 0x4cd, 2, 1⟩,
   ⟨0x4d0, 0x52e, 2, 1⟩, ⟨0x531, 0x556, 1, 48⟩, ⟨0x10a0, 0x10c5, 1, 7264⟩,
   ⟨0x10c7, 0x10c7, 2, 7264⟩, ⟨0x10cd, 0x10cd, 2, 7264⟩, ⟨0x13a0, 0x13ef, 1, 38864⟩,
   ⟨0x13f0, 0x13f5, 1, 8⟩, ⟨0x1c90, 0x1cba, 1, -3008⟩, ⟨0x1cbd, 0x1cbf, 1, -3008⟩,
   ⟨0x1e00, 0x1e94, 2, 1⟩, ⟨0x1e9e, 0x1e9e, 2, -7615⟩, ⟨0x1ea0, 0x1efe, 2, 1⟩,
   ⟨0x1f08, 0x1f0f, 1, -8⟩, ⟨0x1f18, 0x1f1d, 1, -8⟩, ⟨0x1f28, 0x1f2f, 1, -8⟩,
   ⟨0x1f38, 0x1f3f, 1, -8⟩, ⟨0x1f48, 0x1f4d, 1, -8⟩, ⟨0x1f59, 0x1f5f, 2, -8⟩,
   ⟨0x1f68, 0x1f6f, 1, -8⟩, ⟨0x1f88, 0x1f8f, 1, -8⟩, ⟨0x1f98, 0x1f9f, 1, -8⟩,
   ⟨0x1fa8, 0x1faf, 1, -8⟩, ⟨0x1fb8, 0x1fb9, 1, -8⟩, ⟨0x1fba, 0x1fbb, 1, -74⟩,
   ⟨0x1fbc, 0x1fbc, 2, -9⟩, ⟨0x1fc8, 0x1fcb, 1, -86⟩, ⟨0x1fcc, 0x1fcc, 2, -9⟩,
   ⟨0x1fd8, 0x1fd9, 1, -8⟩, ⟨0x1fda, 0x1fdb, 1, -100⟩, ⟨0x1fe8, 0x1fe9, 1, -8⟩,
   ⟨0x1fea, 0x1feb, 1, -112⟩, ⟨0x1fec, 0x1fec, 2, -7⟩, ⟨0x1ff8, 0x1ff9, 1, -128⟩,
   ⟨0x1ffa, 0x1ffb, 1, -126⟩, ⟨0x1ffc, 0x1ffc, 2, -9⟩, ⟨0x2126, 0x2126, 2, -7517⟩,
   ⟨0x212a, 0x212a, 2, -8383⟩, ⟨0x212b, 0x212b, 2, -8262⟩, ⟨0x2132, 0x2132, 2, 28⟩,
   ⟨0x2160, 0x216f, 1, 16⟩, ⟨0x2183, 0x2183, 2, 1⟩, ⟨0x24b6, 0x24cf, 1, 26⟩,
   ⟨0x2c00, 0x2c2f, 1, 48⟩, ⟨0x2c60, 0x2c60, 2, 1⟩, ⟨0x2c62, 0x2c62, 2, -10743⟩,
   ⟨0x2c63, 0x2c63, 2, -3814⟩, ⟨0x2c64, 0x2c64, 2, -10727⟩, ⟨0x2c67, 0x2c6b, 2, 1⟩,
   ⟨0x2c6d, 0x2c6d, 2, -10780⟩, ⟨0x2c6e, 0x2c6e, 2, -10749⟩, ⟨0x2c6f, 0x2c6f, 2, -10783⟩,
   ⟨0x2c70, 0x2c70, 2, -10782⟩, ⟨0x2c72, 0x2c72, 2, 1⟩, ⟨0x2c75, 0x2c75, 2, 1⟩,
   ⟨0x2c7e, 0x2c7f, 1, -10815⟩, ⟨0x2c80, 0x2ce2, 2, 1⟩, ⟨0x2ceb, 0x2ced, 2, 1⟩,
   ⟨0x2cf2, 0x2cf2, 2, 1⟩, ⟨0xa640, 0xa66c, 2, 1⟩, ⟨0xa680, 0xa69a, 2, 1⟩, ⟨0xa722, 0xa72e, 2, 1⟩,
   ⟨0xa732, 0xa76e, 2, 1⟩, ⟨0xa779, 0xa77b, 2, 1⟩, ⟨0xa77d, 0xa77d, 2, -35332⟩,
   ⟨0xa77e, 0xa786, 2, 1⟩, ⟨0xa78b, 0xa78b, 2, 1⟩, ⟨0xa78d, 0xa78d, 2, -42280⟩,
   ⟨0xa790, 0xa792, 2, 1⟩, ⟨0xa796, 0xa7a8, 2, 1⟩, ⟨0xa7aa, 0xa7aa, 2, -42308⟩,
   ⟨0xa7ab, 0xa7ab, 2, -42319⟩, ⟨0xa7ac, 0xa7ac, 2, -42315⟩, ⟨0xa7ad, 0xa7ad, 2, -42305⟩,
   ⟨0xa7ae, 0xa7ae, 2, -42308⟩, ⟨0xa7b0, 0xa7b0, 2, -42258⟩, ⟨0xa7b1, 0xa7b1, 2, -42282⟩,
   ⟨0xa7b2, 0xa7b2, 2, -42261⟩, ⟨0xa7b3, 0xa7b3, 2, 928⟩, ⟨0xa7b4, 0xa7c2, 2, 1⟩,
   ⟨0xa7c4, 0xa7c4, 2, -48⟩, ⟨0xa7c5, 0xa7c5, 2, -42307⟩, ⟨0xa7c6, 0xa7c6, 2, -35384⟩,
   ⟨0xa7c7, 0xa7c9, 2, 1⟩, ⟨0xa7d0, 0xa7d0, 2, 1⟩, ⟨0xa7d6, 0xa7d8, 2, 1⟩, ⟨0xa7f5, 0xa7f5, 2, 1⟩,
   ⟨0xff21, 0xff3a, 1, 32⟩, ⟨0x10400, 0x10427, 1, 40⟩, ⟨0x104b0, 0x104d3, 1, 40⟩,
   ⟨0x10570, 0x1057a, 1, 39⟩, ⟨0x1057c, 0x1058a, 1, 39⟩, ⟨0x1058c, 0x10592, 1, 39⟩,
   ⟨0x10594, 0x10595, 1, 39⟩, ⟨0x10c80, 0x10cb2, 1, 64⟩, ⟨0x118a0, 0x118bf, 1, 32⟩,
   ⟨0x16e40, 0x16e5f, 1, 32⟩, ⟨0x1e900, 0x1e921, 1, 34⟩]

/-- The further spellings of small letters, with the letter they are a spelling of. -/
def variantRanges : List CaseRange :=
  [⟨0xb5, 0xb5, 2, 775⟩, ⟨0x17f, 0x17f, 2, -268⟩, ⟨0x345, 0x345, 2, 116⟩, ⟨0x3c2, 0x3c2, 2, 1⟩,
   ⟨0x3d0, 0x3d0, 2, -30⟩, ⟨0x3d1, 0x3d1, 2, -25⟩, ⟨0x3d5, 0x3d5, 2, -15⟩, ⟨0x3d6, 0x3d6, 2, -22⟩,
   ⟨0x3f0, 0x3f0, 2, -54⟩, ⟨0x3f1, 0x3f1, 2, -48⟩, ⟨0x3f5, 0x3f5, 2, -64⟩,
   ⟨0x1c80, 0x1c80, 2, -6222⟩, ⟨0x1c81, 0x1c81, 2, -6221⟩, ⟨0x1c82, 0x1c82, 2, -6212⟩,
   ⟨0x1c83, 0x1c83, 2, -6210⟩, ⟨0x1c84, 0x1c84, 2, -6210⟩, ⟨0x1c85, 0x1c85, 2, -6211⟩,
   ⟨0x1c86, 0x1c86, 2, -6204⟩, ⟨0x1c87, 0x1c87, 2, -6180⟩, ⟨0x1c88, 0x1c88, 2, 35267⟩,
   ⟨0x1e9b, 0x1e9b, 2, -58⟩, ⟨0x1fbe, 0x1fbe, 2, -7173⟩, ⟨0x1fd3, 0x1fd3, 2, -7235⟩,
   ⟨0x1fe3, 0x1fe3, 2, -7219⟩, ⟨0xfb05, 0xfb05, 2, 1⟩]

def foldRanges : List CaseRange := variantRanges ++ lowerRanges

end Tables

/-- `c.lower()` for a text of one character -/
def lowerChar (c : Char) : Text :=
  if c = 'İ' then ['i', '\u0307'] else [mapChar lowerRanges c]

/-- The rest of a text in lower case, behind the characters in `before`, the last one first. -/
def lowerFrom (finalSigma : Text → Text → Bool) : Text → Text → Text
  | _, [] => []
  | before, c :: after =>
    (if c = 'Σ' then [if finalSigma before after then 'ς' else 'σ'] else lowerChar c) ++
      lowerFrom finalSigma (c :: before) after

/-- `s.lower()`. Which of its two small letters stands for a Σ depends on the letters around it;
`finalSigma` is that rule. -/
def lower (finalSigma : Text → Text → Bool) (s : Text) : Text := lowerFrom finalSigma [] s

def fold (c : Char) : Char := mapChar foldRanges c

example : lower (fun _ _ => false) "ÉLAN Ω1".toList = "élan ω1".toList := by decide +kernel

section Codes
variable {ranges : List CaseRange} {r q : CaseRange} {n : Nat}

theorem mapCode_of_not (h : ∀ r ∈ ranges, ¬ r.Holds n) : mapCode ranges n = n := by
  have hnone : (ranges.find? fun r => decide (r.Holds n)) = none := by
    simpa [List.find?_eq_none] using h
  simp only [mapCode, hnone]

theorem mapCode_cases (ranges : List CaseRange) (n : Nat) :
    ((∀ r ∈ ranges, ¬ r.Holds n) ∧ mapCode ranges n = n) ∨
      ∃ r ∈ ranges, r.Holds n ∧ mapCode ranges n = r.image n := by
  cases hfind : ranges.find? fun r => decide (r.Holds n) with
  | none =>
    have hnot : ∀ r ∈ ranges, ¬ r.Holds n := by simpa [List.find?_eq_none] using hfind
    exact .inl ⟨hnot, mapCode_of_not hnot⟩
  | some r =>
    refine .inr ⟨r, List.mem_of_find?_eq_some hfind, ?_, by simp only [mapCode, hfind]⟩
    simpa using List.find?_some hfind

theorem CaseRange.not_holds_image (hr : r.Holds n) (hletters : r.letters = true)
    (h : r.misses q = true) : ¬ q.Holds (r.image n) := by
  obtain ⟨hfirst, hlast, hstep⟩ := hr
  have hpositive : 0x61 ≤ (r.first : Int) + r.shift := by
    unfold CaseRange.letters at hletters
    simp only [Bool.and_eq_true, decide_eq_true_eq] at hletters
    exact hletters.1
  unfold CaseRange.misses at h
  simp only [Bool.or_eq_true, Bool.and_eq_true, beq_iff_eq, decide_eq_true_eq] at h
  rintro ⟨hqfirst, hqlast, hqstep⟩
  unfold CaseRange.image at hqfirst hqlast hqstep
  rcases h with (habove | hbelow) | ⟨⟨htwo, hqtwo⟩, hodd⟩
  · omega
  · omega
  · rw [htwo] at hstep
    rw [hqtwo] at hqstep
    omega

theorem CaseRange.image_letter (hr : r.Holds n) (h : r.letters = true) :
    0x61 ≤ r.image n ∧ (r.image n).isValidChar := by
  obtain ⟨hfirst, hlast, -⟩ := hr
  unfold CaseRange.letters at h
  simp only [Bool.or_eq_true, Bool.and_eq_true, decide_eq_true_eq] at h
  unfold CaseRange.image Nat.isValidChar
  omega

theorem foldRanges_letters : (foldRanges.all CaseRange.letters) = true := by decide +kernel

theorem lowerRanges_misses :
    (lowerRanges.all fun r => foldRanges.all fun q => r.misses q) = true := by decide +kernel

theorem variantRanges_small :
    (variantRanges.all fun v => v.first == v.last &&
      lowerRanges.all fun r => !decide (r.Holds v.first)) = true := by decide +kernel

theorem mem_foldRanges (h : r ∈ lowerRanges) : r ∈ foldRanges := List.mem_append_right _ h

/-- The image of a letter is not mapped again. -/
theorem mapCode_image (h : r ∈ lowerRanges) (hr : r.Holds n) :
    mapCode foldRanges (r.image n) = r.image n := by
  apply mapCode_of_not
  intro q hq
  exact CaseRange.not_holds_image hr
    (List.all_eq_true.mp foldRanges_letters r (mem_foldRanges h))
    (List.all_eq_true.mp (List.all_eq_true.mp lowerRanges_misses r h) q hq)

/-- Folding does to a capital letter what the lower case does. -/
theorem mapCode_fold_of_holds (h : r ∈ lowerRanges) (hr : r.Holds n) :
    mapCode foldRanges n = mapCode lowerRanges n := by
  have hnone : (variantRanges.find? fun v => decide (v.Holds n)) = none := by
    apply List.find?_eq_none.mpr
    intro v hv hholds
    have hsmall := List.all_eq_true.mp variantRanges_small v hv
    simp only [Bool.and_eq_true, beq_iff_eq] at hsmall
    obtain ⟨hfirst, hlast, -⟩ := of_decide_eq_true hholds
    obtain rfl : n = v.first := by omega
    have hnot := List.all_eq_true.mp hsmall.2 r h
    simp [hr] at hnot
  simp only [mapCode, foldRanges, List.find?_append, hnone, Option.none_or]

theorem mapCode_fold_lower (n : Nat) :
    mapCode foldRanges (mapCode lowerRanges n) = mapCode foldRanges n := by
  rcases mapCode_cases lowerRanges n with ⟨-, hsame⟩ | ⟨r, hr, hholds, himage⟩
  · rw [hsame]
  · rw [mapCode_fold_of_holds hr hholds, himage, mapCode_image hr hholds]

end Codes

section Chars
variable {c d : Char}

theorem toNat_ofNat {n : Nat} (h : n.isValidChar) : (Char.ofNat n).toNat = n := by
  rw [Char.ofNat, dif_pos h]
  rfl

/-- A character is mapped to itself or behind the capital letters of ASCII. -/
theorem toNat_mapChar {ranges : List CaseRange} (h : ranges ⊆ foldRanges) (c : Char) :
    (mapChar ranges c).toNat = mapCode ranges c.toNat ∧
      (mapChar ranges c = c ∨ 0x61 ≤ (mapChar ranges c).toNat) := by
  rcases mapCode_cases ranges c.toNat with ⟨-, hsame⟩ | ⟨r, hr, hholds, himage⟩
  · rw [mapChar, hsame, Char.ofNat_toNat]
    exact ⟨rfl, .inl rfl⟩
  · obtain ⟨hletter, hvalid⟩ :=
      CaseRange.image_letter hholds (List.all_eq_true.mp foldRanges_letters r (h hr))
    rw [mapChar, himage, toNat_ofNat hvalid]
    exact ⟨rfl, .inr hletter⟩

theorem lowerRanges_subset : lowerRanges ⊆ foldRanges := List.subset_append_right _ _

theorem fold_lower (c : Char) : fold (mapChar lowerRanges c) = fold c := by
  unfold fold
  rw [mapChar, (toNat_mapChar lowerRanges_subset c).1, mapCode_fold_lower, mapChar]

/-- Characters in front of the small letters of ASCII that are not letters have no case. -/
theorem fold_eq_self (hd : d.toNat < 0x61) (h : fold c = d) : c = d := by
  rcases (toNat_mapChar (List.Subset.refl foldRanges) c).2 with hsame | hletter
  · rw [fold, hsame] at h
    exact h
  · rw [fold] at h
    rw [h] at hletter
    omega

theorem lowerChar_eq (h : c ≠ 'İ') : lowerChar c = [mapChar lowerRanges c] := if_neg h

end Chars

section Texts
variable {finalSigma : Text → Text → Bool} {before after t : Text} {c d : Char}

/-- The small letter for a character other than İ. -/
def smallLetter (isFinal : Bool) (c : Char) : Char :=
  if c = 'Σ' then if isFinal then 'ς' else 'σ' else mapChar lowerRanges c

theorem lowerFrom_cons (h : c ≠ 'İ') :
    lowerFrom finalSigma before (c :: after) =
      smallLetter (finalSigma before after) c :: lowerFrom finalSigma (c :: before) after := by
  rw [lowerFrom, smallLetter]
  split
  · rfl
  · rw [lowerChar_eq h]
    rfl

theorem lowerFrom_dotted :
    lowerFrom finalSigma before ('İ' :: after) =
      'i' :: '\u0307' :: lowerFrom finalSigma ('İ' :: before) after := rfl

theorem fold_smallLetter (isFinal : Bool) (c : Char) : fold (smallLetter isFinal c) = fold c := by
  unfold smallLetter
  split
  · rename_i hsigma
    rw [hsigma]
    cases isFinal <;> decide +kernel
  · exact fold_lower c

theorem smallLetter_eq (isFinal : Bool) (h : (smallLetter isFinal c).toNat < 0x61) :
    smallLetter isFinal c = c := by
  unfold smallLetter at h ⊢
  split at h
  · cases isFinal <;> exact absurd h (by decide)
  · rename_i hsigma
    rw [if_neg hsigma]
    rcases (toNat_mapChar lowerRanges_subset c).2 with hsame | hletter
    · exact hsame
    · omega

theorem map_fold_lowerFrom (h : 'İ' ∉ t) (before : Text) :
    (lowerFrom finalSigma before t).map fold = t.map fold := by
  induction t generalizing before with
  | nil => rfl
  | cons c t ih =>
    rw [lowerFrom_cons (List.ne_of_not_mem_cons h).symm, List.map_cons, List.map_cons,
      fold_smallLetter, ih (List.not_mem_of_not_mem_cons h)]

theorem map_fold_lower (h : 'İ' ∉ t) : (lower finalSigma t).map fold = t.map fold :=
  map_fold_lowerFrom h []

theorem length_lowerFrom (t before : Text) :
    (lowerFrom finalSigma before t).length = t.length + t.count 'İ' := by
  induction t generalizing before with
  | nil => rfl
  | cons c t ih =>
    by_cases hc : c = 'İ'
    · rw [hc, lowerFrom_dotted, List.count_cons_self]
      simp only [List.length_cons, ih]
      omega
    · rw [lowerFrom_cons hc, List.count_cons_of_ne hc]
      simp only [List.length_cons, ih]
      omega

theorem length_lower (t : Text) : (lower finalSigma t).length = t.length + t.count 'İ' :=
  length_lowerFrom t []

/-- Lower case neither takes away nor adds a character that is no letter. -/
theorem mem_lowerFrom (hd : d.toNat < 0x61) (hself : mapChar lowerRanges d = d) (before : Text) :
    d ∈ lowerFrom finalSigma before t ↔ d ∈ t := by
  have hdotted : d ≠ 'İ' := by
    rintro rfl
    exact absurd hd (by decide)
  have hsigma : d ≠ 'Σ' := by
    rintro rfl
    exact absurd hd (by decide)
  induction t generalizing before with
  | nil => exact Iff.rfl
  | cons c t ih =>
    by_cases hc : c = 'İ'
    · have hletter : d ≠ 'i' := by
        rintro rfl
        exact absurd hd (by decide)
      have hmark : d ≠ '\u0307' := by
        rintro rfl
        exact absurd hd (by decide)
      rw [hc, lowerFrom_dotted]
      simp [hletter, hmark, hdotted, ih]
    · rw [lowerFrom_cons hc, List.mem_cons, List.mem_cons]
      refine or_congr ?_ (ih _)
      constructor
      · rintro rfl
        exact smallLetter_eq _ hd
      · rintro rfl
        rw [smallLetter, if_neg hsigma, hself]

theorem mem_lower (hd : d.toNat < 0x61) (hself : mapChar lowerRanges d = d) :
    d ∈ lower finalSigma t ↔ d ∈ t :=
  mem_lowerFrom hd hself []

theorem lower_eq_nil : lower finalSigma t = [] ↔ t = [] := by
  rw [← List.length_eq_zero_iff, length_lower, ← List.length_eq_zero_iff]
  constructor
  · intro h
    omega
  · intro h
    rw [List.length_eq_zero_iff.mp h]
    rfl

end Texts

end LetterCase
