import Mathlib.Data.List.DropRight
import Gloora.Lib.Binary64

/-!
# Text as Python reads it

A `str` is a list of code points. The character classes are those of `str.isspace` and
`str.isdecimal` (Unicode 15.1), which the regular expression classes `\s` and `\d` share.
`pyInt` and `pyFloat` are the constructors `int` and `float` on a `str`; `none` is a
`ValueError`.
-/

namespace PyText
set_option autoImplicit false

open Binary64

abbrev Text := List Char

instance : Coe String Text := ⟨String.toList⟩

def spaceCodes : List Nat :=
  [0x20, 0x9, 0xa, 0xb, 0xc, 0xd, 0x1c, 0x1d, 0x1e, 0x1f, 0x85, 0xa0, 0x1680,
   0x2000, 0x2001, 0x2002, 0x2003, 0x2004, 0x2005, 0x2006, 0x2007, 0x2008, 0x2009, 0x200a,
   0x2028, 0x2029, 0x202f, 0x205f, 0x3000]

/-- The code points of the zeros; the digits 1 to 9 of each script follow its zero. -/
def zeroCodes : List Nat :=
  [0x30, 0x660, 0x6f0, 0x7c0, 0x966, 0x9e6, 0xa66, 0xae6, 0xb66, 0xbe6, 0xc66, 0xce6, 0xd66,
   0xde6, 0xe50, 0xed0, 0xf20, 0x1040, 0x1090, 0x17e0, 0x1810, 0x1946, 0x19d0, 0x1a80, 0x1a90,
   0x1b50, 0x1bb0, 0x1c40, 0x1c50, 0xa620, 0xa8d0, 0xa900, 0xa9d0, 0xa9f0, 0xaa50, 0xabf0,
   0xff10, 0x104a0, 0x10d30, 0x11066, 0x110f0, 0x11136, 0x111d0, 0x112f0, 0x11450, 0x114d0,
   0x11650, 0x116c0, 0x11730, 0x118e0, 0x11950, 0x11c50, 0x11d50, 0x11da0, 0x11f50, 0x16a60,
   0x16ac0, 0x16b50, 0x1d7ce, 0x1d7d8, 0x1d7e2, 0x1d7ec, 0x1d7f6, 0x1e140, 0x1e2f0, 0x1e4f0,
   0x1e950, 0x1fbf0]

def isSpace (c : Char) : Bool := spaceCodes.contains c.toNat

def digitVal? (c : Char) : Option Nat :=
  (zeroCodes.find? fun z => z ≤ c.toNat && c.toNat < z + 10).map fun z => c.toNat - z

/-- `s.strip()` -/
def strip (s : Text) : Text :=
  ((s.dropWhile isSpace).reverse.dropWhile isSpace).reverse

theorem strip_eq (s : Text) : strip s = (s.dropWhile isSpace).rdropWhile isSpace := rfl

theorem dropWhile_strip (s : Text) : (strip s).dropWhile isSpace = strip s := by
  rw [List.dropWhile_eq_self_iff]
  intro hne
  have hfront : strip s <+: s.dropWhile isSpace := List.rdropWhile_prefix isSpace _
  rw [hfront.getElem hne]
  exact List.dropWhile_get_zero_not isSpace s _

theorem strip_strip (s : Text) : strip (strip s) = strip s := by
  rw [strip_eq (strip s), dropWhile_strip, strip_eq, List.rdropWhile_idempotent]

theorem dropWhile_eq_self {p : Char → Bool} {s : Text} :
    s.dropWhile p = s ↔ ∀ c, s.head? = some c → p c = false := by
  cases s with
  | nil => simp
  | cons c cs =>
    rw [List.dropWhile_eq_self_iff]
    simp

theorem rdropWhile_eq_self {p : Char → Bool} {s : Text} :
    s.rdropWhile p = s ↔ ∀ c, s.getLast? = some c → p c = false := by
  rw [List.rdropWhile_eq_self_iff]
  constructor
  · intro h c hc
    have hne : s ≠ [] := List.ne_nil_of_mem (List.mem_of_getLast? hc)
    obtain rfl := Option.some.inj ((List.getLast?_eq_some_getLast hne).symm.trans hc)
    simpa using h hne
  · intro h hne
    simp [h _ (List.getLast?_eq_some_getLast hne)]

/-- A text is stripped already when it neither starts nor ends with white space. -/
theorem strip_eq_self {s : Text} : strip s = s ↔
    (∀ c, s.head? = some c → isSpace c = false) ∧
      ∀ c, s.getLast? = some c → isSpace c = false := by
  rw [← dropWhile_eq_self, ← rdropWhile_eq_self]
  constructor
  · intro h
    have hfront : s.dropWhile isSpace = s := by
      rw [← h]
      exact dropWhile_strip s
    exact ⟨hfront, by rw [strip_eq, hfront] at h; exact h⟩
  · rintro ⟨hfront, hback⟩
    rw [strip_eq, hfront, hback]

/-- The white space that may stand around a number: the separators of ASCII are no part of it. -/
def isPadding (c : Char) : Bool := isSpace c && !(0x1c ≤ c.toNat && c.toNat ≤ 0x1f)

def unpad (s : Text) : Text := (s.dropWhile isPadding).rdropWhile isPadding

theorem unpad_of_strip {s : Text} (h : strip s = s) : unpad s = s := by
  have hsolid : ∀ c, isSpace c = false → isPadding c = false := by
    intro c hc
    rw [isPadding, hc, Bool.false_and]
  obtain ⟨hfront, hback⟩ := strip_eq_self.mp h
  have hhead : s.dropWhile isPadding = s :=
    dropWhile_eq_self.mpr fun c hc => hsolid c (hfront c hc)
  rw [unpad, hhead]
  exact rdropWhile_eq_self.mpr fun c hc => hsolid c (hback c hc)

/-- `s.split(",")` -/
def splitComma (s : Text) : List Text := s.splitOn ','

/-- `",".join(ts)` -/
def joinComma (ts : List Text) : Text := [','].intercalate ts

theorem splitComma_joinComma {ts : List Text} (hne : ts ≠ []) (h : ∀ t ∈ ts, ',' ∉ t) :
    splitComma (joinComma ts) = ts :=
  List.splitOn_intercalate ',' h hne

theorem length_splitComma_eq_one {s : Text} : (splitComma s).length = 1 ↔ ',' ∉ s := by
  constructor
  · intro h hs
    obtain ⟨a, b, rfl⟩ := List.append_of_mem hs
    have ha := List.length_pos_iff.mpr (List.splitOn_ne_nil ',' a)
    have hb := List.length_pos_iff.mpr (List.splitOn_ne_nil ',' b)
    rw [splitComma, List.splitOn_append_cons_self, List.length_append] at h
    omega
  · intro h
    rw [splitComma, List.splitOn_eq_singleton h]
    rfl

/-- A run of digits in which single underscores may stand between two digits. -/
def digitRun : Text → Option (List Nat)
  | [] => none
  | [c] => (digitVal? c).map fun d => [d]
  | c :: '_' :: cs => do
    let d ← digitVal? c
    let ds ← digitRun cs
    pure (d :: ds)
  | c :: d :: cs => do
    let v ← digitVal? c
    let vs ← digitRun (d :: cs)
    pure (v :: vs)

def ofDigits (ds : List Nat) : Nat := ds.foldl (fun n d => 10 * n + d) 0

/-- The sign in front of a number: whether it is negative, and the rest. -/
def splitSign : Text → Bool × Text
  | '-' :: cs => (true, cs)
  | '+' :: cs => (false, cs)
  | cs => (false, cs)

/-- `int(s)`; more than 4300 digits are a `ValueError` too. -/
def pyInt (s : Text) : Option Int := do
  let (negative, body) := splitSign (unpad s)
  let ds ← digitRun body
  if 4300 < ds.length then none
  else if negative then pure (-(ofDigits ds : Int))
  else pure (ofDigits ds)

def optionalRun (s : Text) : Option (List Nat) :=
  if s.isEmpty then some [] else digitRun s

def asciiLower (s : Text) : Text := s.map Char.toLower

theorem toLower_eq_self {c : Char} (h : ¬ (c.val ≥ 'A'.val ∧ c.val ≤ 'Z'.val)) : c.toLower = c :=
  dif_neg h

def exponent : Text → Option Int
  | [] => some 0
  | _ :: cs => do
    let (negative, body) := splitSign cs
    let ds ← digitRun body
    pure (if negative then -(ofDigits ds : Int) else (ofDigits ds : Int))

/-- `float(s)` -/
def pyFloat (s : Text) : Option Double :=
  let (negative, body) := splitSign (unpad s)
  let word := asciiLower body
  if word = "nan".toList then some .nan
  else if word = "inf".toList ∨ word = "infinity".toList then some (.inf negative)
  else do
    let (mantissa, scale) := body.span fun c => c != 'e' && c != 'E'
    let (whole, point) := mantissa.span fun c => c != '.'
    let fraction := point.drop 1
    if whole.isEmpty && fraction.isEmpty then none
    else do
      let ws ← optionalRun whole
      let fs ← optionalRun fraction
      let e ← exponent scale
      pure (ofDecimal negative (ofDigits (ws ++ fs)) (e - fs.length))

example : pyFloat " -1_0.25e1 ".toList = some (.fin (-205 * 2 ^ 1073)) ∧
    pyFloat "\x1c1".toList = none := by decide +kernel

theorem isDouble_pyFloat {s : Text} {x : Double} (h : pyFloat s = some x) : IsDouble x := by
  unfold pyFloat at h
  simp only at h
  split at h
  · obtain rfl := Option.some.inj h
    exact .nan
  split at h
  · obtain rfl := Option.some.inj h
    exact .inf _
  split at h
  · cases h
  simp only [bind, Option.bind_eq_some_iff] at h
  obtain ⟨ws, -, fs, -, e, -, hx⟩ := h
  obtain rfl := Option.some.inj hx
  exact isDouble_ofDecimal _ _ _

end PyText
