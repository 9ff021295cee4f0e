import Mathlib.Data.List.TakeDrop
import Gloora.Lib.PyText

/-!
# Text as JavaScript reads it

White space is that of ECMAScript, which `trim`, the class `\s` and `Number` share. `number` is
`Number` on a string: a decimal literal or `Infinity` with an optional sign, or an integer in
base 16, 8 or 2 without one.
-/

namespace JsText
set_option autoImplicit false

open PyText Binary64

section White

def spaceCodes : List Nat :=
  [0x9, 0xa, 0xb, 0xc, 0xd, 0x20, 0xa0, 0x1680,
   0x2000, 0x2001, 0x2002, 0x2003, 0x2004, 0x2005, 0x2006, 0x2007, 0x2008, 0x2009, 0x200a,
   0x2028, 0x2029, 0x202f, 0x205f, 0x3000, 0xfeff]

def isSpace (c : Char) : Bool := spaceCodes.contains c.toNat

/-- `s.trim()` -/
def trim (s : Text) : Text := (s.dropWhile isSpace).rdropWhile isSpace

/-- `s.split(/\s+/)`, for a text without white space at its ends. -/
def splitSpaces (s : Text) : List Text := (s.splitOnP isSpace).filter fun part => !part.isEmpty

end White

section Numbers

def digit? (radix : Nat) (c : Char) : Option Nat :=
  let d :=
    if c.isDigit then c.toNat - 48
    else if 'a' ≤ c ∧ c ≤ 'f' then c.toNat - 87
    else if 'A' ≤ c ∧ c ≤ 'F' then c.toNat - 55
    else radix
  if d < radix then some d else none

def digits? (radix : Nat) (s : Text) : Option (List Nat) := s.mapM (digit? radix)

def radix? : Char → Option Nat
  | 'x' | 'X' => some 16
  | 'o' | 'O' => some 8
  | 'b' | 'B' => some 2
  | _ => none

/-- A hexadecimal, octal or binary literal. -/
def nonDecimal? : Text → Option Nat
  | '0' :: c :: cs => do
    let radix ← radix? c
    if cs.isEmpty then none
    else do
      let ds ← digits? radix cs
      pure (ds.foldl (fun n d => radix * n + d) 0)
  | _ => none

def exponent? : Text → Option Int
  | [] => some 0
  | _ :: cs => do
    let (negative, body) := splitSign cs
    if body.isEmpty then none
    else do
      let ds ← digits? 10 body
      pure (if negative then -(ofDigits ds : Int) else (ofDigits ds : Int))

/-- A decimal literal after its sign. -/
def unsignedDecimal? (negative : Bool) (body : Text) : Option Double :=
  if body = "Infinity".toList then some (.inf negative)
  else do
    let (mantissa, scale) := body.span fun c => c != 'e' && c != 'E'
    let (whole, point) := mantissa.span fun c => c != '.'
    let fraction := point.drop 1
    if whole.isEmpty && fraction.isEmpty then none
    else do
      let ws ← digits? 10 whole
      let fs ← digits? 10 fraction
      let e ← exponent? scale
      pure (ofDecimal negative (ofDigits (ws ++ fs)) (e - fs.length))

def decimal? (s : Text) : Option Double :=
  let (negative, body) := splitSign s
  unsignedDecimal? negative body

/-- `Number(s)` -/
def number (s : Text) : Double :=
  let body := trim s
  if body.isEmpty then .fin 0
  else
    match nonDecimal? body with
    | some n => ofDecimal false n 0
    | none => (decimal? body).getD .nan

example : number " 0x1F ".toList = .fin (31 * 2 ^ 1074) := by decide +kernel

end Numbers

section Digits
variable {s : Text} {ds : List Nat} {c : Char}

theorem digit?_ten {d : Nat} (h : digit? 10 c = some d) : c.isDigit = true ∧ d = c.toNat - 48 := by
  have hlower : 'a' ≤ c → 97 ≤ c.toNat := fun h => h
  have hupper : 'A' ≤ c → 65 ≤ c.toNat := fun h => h
  unfold digit? at h
  by_cases hdigit : c.isDigit = true
  · simp only [hdigit, if_true] at h
    split at h
    · exact ⟨hdigit, (Option.some.inj h).symm⟩
    · cases h
  · simp only [hdigit, Bool.false_eq_true, if_false] at h
    grind

theorem isDigit_bounds (h : c.isDigit = true) : 48 ≤ c.toNat ∧ c.toNat ≤ 57 := by
  simp only [Char.isDigit, Bool.and_eq_true, decide_eq_true_eq] at h
  exact h

theorem digitVal?_of_isDigit (h : c.isDigit = true) : digitVal? c = some (c.toNat - 48) := by
  obtain ⟨hlow, hhigh⟩ := isDigit_bounds h
  have hfirst : (0x30 ≤ c.toNat && c.toNat < 0x30 + 10) = true := by
    simp only [Bool.and_eq_true, decide_eq_true_eq]
    omega
  have hfind : zeroCodes.find? (fun z => z ≤ c.toNat && c.toNat < z + 10) = some 0x30 :=
    List.find?_cons_of_pos hfirst
  rw [digitVal?, hfind]
  rfl

theorem digits?_cons {radix : Nat} (h : digits? radix (c :: s) = some ds) :
    ∃ d ds', digit? radix c = some d ∧ digits? radix s = some ds' ∧ ds = d :: ds' := by
  simp only [digits?, List.mapM_cons, Option.bind_eq_bind, Option.bind_eq_some_iff,
    Option.pure_def] at h
  obtain ⟨d, hd, ds', hds, hcons⟩ := h
  exact ⟨d, ds', hd, hds, (Option.some.inj hcons).symm⟩

theorem digits?_ten_cons (h : digits? 10 (c :: s) = some ds) :
    c.isDigit = true ∧ ∃ ds', digits? 10 s = some ds' ∧ ds = (c.toNat - 48) :: ds' := by
  obtain ⟨d, ds', hd, hds, hcons⟩ := digits?_cons h
  obtain ⟨hdigit, rfl⟩ := digit?_ten hd
  exact ⟨hdigit, ds', hds, hcons⟩

/-- Python reads the digits JavaScript reads, with the same values. -/
theorem digitRun_of_digits? (hne : s ≠ []) (h : digits? 10 s = some ds) : digitRun s = some ds := by
  induction s using digitRun.induct generalizing ds with
  | case1 => exact absurd rfl hne
  | case2 c =>
    obtain ⟨hdigit, ds', hnil, rfl⟩ := digits?_ten_cons h
    obtain rfl := Option.some.inj hnil
    simp [digitRun, digitVal?_of_isDigit hdigit]
  | case3 c cs ih =>
    obtain ⟨-, ds', hds, -⟩ := digits?_ten_cons h
    obtain ⟨hunderscore, -⟩ := digits?_ten_cons hds
    exact absurd hunderscore (by decide)
  | case4 c d cs hunderscore ih =>
    obtain ⟨hdigit, ds', hds, rfl⟩ := digits?_ten_cons h
    have htail := ih (List.cons_ne_nil d cs) hds
    rw [digitRun]
    · simp [digitVal?_of_isDigit hdigit, htail]
    · exact hunderscore

end Digits

section Agreement
variable {s body : Text} {c : Char} {negative : Bool} {x : Double}

theorem optionalRun_of_digits? {ds : List Nat} (h : digits? 10 s = some ds) :
    optionalRun s = some ds := by
  cases s with
  | nil => exact h
  | cons c cs => exact digitRun_of_digits? (List.cons_ne_nil c cs) h

theorem exponent_of_exponent? {e : Int} (h : exponent? s = some e) : exponent s = some e := by
  cases s with
  | nil => exact h
  | cons c cs =>
    simp only [exponent?] at h
    split at h
    · cases h
    · rename_i hne
      simp only [bind, Option.bind_eq_some_iff] at h
      obtain ⟨ds, hds, he⟩ := h
      have hrun := digitRun_of_digits? (by simpa using hne) hds
      simp only [exponent, hrun, bind, Option.bind_some]
      exact he

/-- The parts of an accepted literal, other than `Infinity`. -/
structure Literal (negative : Bool) (body : Text) (x : Double) where
  whole : Text
  point : Text
  scale : Text
  ws : List Nat
  fs : List Nat
  e : Int
  mantissa : body.span (fun c => c != 'e' && c != 'E') = (whole ++ point, scale)
  split : (whole ++ point).span (fun c => c != '.') = (whole, point)
  some_digit : (whole.isEmpty && (point.drop 1).isEmpty) = false
  whole_eq : digits? 10 whole = some ws
  fraction_eq : digits? 10 (point.drop 1) = some fs
  exponent_eq : exponent? scale = some e
  value : x = ofDecimal negative (ofDigits (ws ++ fs)) (e - fs.length)

theorem unsignedDecimal?_cases (h : unsignedDecimal? negative body = some x) :
    body = "Infinity".toList ∧ x = .inf negative ∨ Nonempty (Literal negative body x) := by
  unfold unsignedDecimal? at h
  split at h
  · rename_i hbody
    exact .inl ⟨hbody, (Option.some.inj h).symm⟩
  · simp only at h
    split at h
    · cases h
    rename_i hsome
    simp only [bind, Option.bind_eq_some_iff] at h
    obtain ⟨ws, hws, fs, hfs, e, he, hx⟩ := h
    refine .inr ⟨⟨_, _, _, ws, fs, e, ?_, ?_, by simpa using hsome, hws, hfs, he,
      (Option.some.inj hx).symm⟩⟩
    · simp only [List.span_eq_takeWhile_dropWhile, List.takeWhile_append_dropWhile]
    · simp only [List.span_eq_takeWhile_dropWhile, List.takeWhile_append_dropWhile]

theorem span_append {p : Char → Bool} {first rest : Text} (h : s.span p = (first, rest)) :
    s = first ++ rest ∧ ∀ c cs, rest = c :: cs → p c = false := by
  rw [List.span_eq_takeWhile_dropWhile] at h
  obtain ⟨rfl, rfl⟩ := Prod.mk.inj h
  refine ⟨List.takeWhile_append_dropWhile.symm, ?_⟩
  intro c cs hcons
  have hhead := List.head?_dropWhile_not p s
  rw [hcons] at hhead
  exact hhead

theorem isSpace_digit? {radix d : Nat} (h : digit? radix c = some d) :
    PyText.isSpace c = false := by
  have hdigit : c.isDigit = true → 48 ≤ c.toNat ∧ c.toNat ≤ 57 := isDigit_bounds
  have hlower : 'a' ≤ c → 97 ≤ c.toNat := fun h => h
  have hlower' : c ≤ 'f' → c.toNat ≤ 102 := fun h => h
  have hupper : 'A' ≤ c → 65 ≤ c.toNat := fun h => h
  have hupper' : c ≤ 'F' → c.toNat ≤ 70 := fun h => h
  have hrange : 48 ≤ c.toNat ∧ c.toNat ≤ 102 := by
    unfold digit? at h
    grind
  simp only [PyText.isSpace, PyText.spaceCodes, List.contains_eq_mem, decide_eq_false_iff_not,
    List.mem_cons, List.not_mem_nil, or_false]
  omega

theorem isSpace_digits? {radix : Nat} {ds : List Nat} (h : digits? radix s = some ds) :
    ∀ c ∈ s, PyText.isSpace c = false := by
  induction s generalizing ds with
  | nil => simp
  | cons c s ih =>
    obtain ⟨d, ds', hd, hds, -⟩ := digits?_cons h
    exact List.forall_mem_cons.mpr ⟨isSpace_digit? hd, ih hds⟩

theorem mem_splitSign (h : c ∈ s) : c = '-' ∨ c = '+' ∨ c ∈ (splitSign s).2 := by
  unfold splitSign
  split
  · rcases List.mem_cons.mp h with rfl | hmem
    · exact .inl rfl
    · exact .inr (.inr hmem)
  · rcases List.mem_cons.mp h with rfl | hmem
    · exact .inr (.inl rfl)
    · exact .inr (.inr hmem)
  · exact .inr (.inr h)

theorem isSpace_splitSign (h : ∀ c ∈ (splitSign s).2, PyText.isSpace c = false) :
    ∀ c ∈ s, PyText.isSpace c = false := by
  intro c hc
  rcases mem_splitSign hc with rfl | rfl | hmem
  · decide
  · decide
  · exact h c hmem

theorem isSpace_exponent? {e : Int} (h : exponent? s = some e)
    (hhead : ∀ c cs, s = c :: cs → (c != 'e' && c != 'E') = false) :
    ∀ c ∈ s, PyText.isSpace c = false := by
  cases s with
  | nil => simp
  | cons c cs =>
    have hletter : c = 'e' ∨ c = 'E' := by
      have hletter := hhead c cs rfl
      simpa [← or_iff_not_imp_left] using hletter
    simp only [exponent?] at h
    split at h
    · cases h
    simp only [bind, Option.bind_eq_some_iff] at h
    obtain ⟨ds, hds, -⟩ := h
    refine List.forall_mem_cons.mpr ⟨?_, isSpace_splitSign (isSpace_digits? hds)⟩
    rcases hletter with rfl | rfl <;> decide

/-- No character of a decimal literal is white space. -/
theorem isSpace_unsignedDecimal? (h : unsignedDecimal? negative body = some x) :
    ∀ c ∈ body, PyText.isSpace c = false := by
  rcases unsignedDecimal?_cases h with ⟨rfl, -⟩ | ⟨⟨literal⟩⟩
  · have hall : ("Infinity".toList.all fun c => !PyText.isSpace c) = true := by decide
    simpa using hall
  · obtain ⟨hbody, hscale⟩ := span_append literal.mantissa
    obtain ⟨-, hpoint⟩ := span_append literal.split
    rw [hbody]
    simp only [List.forall_mem_append]
    refine ⟨⟨isSpace_digits? literal.whole_eq, ?_⟩, isSpace_exponent? literal.exponent_eq hscale⟩
    have hfraction := literal.fraction_eq
    cases hcons : literal.point with
    | nil => simp
    | cons c cs =>
      obtain rfl : c = '.' := by simpa using hpoint c cs hcons
      rw [hcons] at hfraction
      exact List.forall_mem_cons.mpr ⟨by decide, isSpace_digits? hfraction⟩

theorem strip_of_isSpace (h : ∀ c ∈ s, PyText.isSpace c = false) : strip s = s :=
  strip_eq_self.mpr ⟨fun c hc => h c (List.mem_of_head? hc),
    fun c hc => h c (List.mem_of_getLast? hc)⟩

theorem toLower_of_lt (h : c.toNat < 65) : c.toLower = c := by
  apply toLower_eq_self
  rintro ⟨hupper, -⟩
  have hle : 65 ≤ c.toNat := hupper
  omega

/-- A literal starts with a digit or a point. -/
theorem Literal.head (literal : Literal negative body x) :
    ∃ c cs, body = c :: cs ∧ c.toNat < 65 := by
  obtain ⟨hbody, hscale⟩ := span_append literal.mantissa
  obtain ⟨-, hpoint⟩ := span_append literal.split
  cases hwhole : literal.whole with
  | cons c cs =>
    have hdigits := literal.whole_eq
    rw [hwhole] at hdigits
    obtain ⟨hdigit, -⟩ := digits?_ten_cons hdigits
    refine ⟨c, _, by rw [hbody, hwhole]; rfl, ?_⟩
    have hbounds := isDigit_bounds hdigit
    omega
  | nil =>
    cases hcons : literal.point with
    | nil =>
      have hsome := literal.some_digit
      simp [hwhole, hcons] at hsome
    | cons c cs =>
      obtain rfl : c = '.' := by simpa using hpoint c cs hcons
      exact ⟨'.', _, by rw [hbody, hwhole, hcons]; rfl, by decide⟩

theorem asciiLower_ne {cs rest : Text} {first : Char} (hc : c.toNat < 65)
    (hfirst : 65 ≤ first.toNat) : asciiLower (c :: cs) ≠ first :: rest := by
  intro h
  obtain ⟨hhead, -⟩ := List.cons.inj h
  rw [toLower_of_lt hc] at hhead
  subst hhead
  omega

theorem Literal.not_word (literal : Literal negative body x) {first : Char} {rest : Text}
    (hfirst : 65 ≤ first.toNat) : asciiLower body ≠ first :: rest := by
  obtain ⟨c, cs, rfl, hlt⟩ := literal.head
  exact asciiLower_ne hlt hfirst

theorem strip_of_decimal? (h : decimal? s = some x) : strip s = s := by
  change unsignedDecimal? (splitSign s).1 (splitSign s).2 = some x at h
  exact strip_of_isSpace (isSpace_splitSign (isSpace_unsignedDecimal? h))

/-- Python's `float` reads a decimal literal of JavaScript as the same number. -/
theorem pyFloat_of_decimal? (h : decimal? s = some x) : pyFloat s = some x := by
  have hpadding := unpad_of_strip (strip_of_decimal? h)
  change unsignedDecimal? (splitSign s).1 (splitSign s).2 = some x at h
  unfold pyFloat
  simp only [hpadding]
  rcases unsignedDecimal?_cases h with ⟨hbody, rfl⟩ | ⟨⟨literal⟩⟩
  · have hword : asciiLower "Infinity".toList = "infinity".toList := by decide
    rw [hbody, hword, if_neg (by decide), if_pos (.inr rfl)]
  · have hnan : asciiLower (splitSign s).2 ≠ "nan".toList := literal.not_word (by decide)
    have hinf : asciiLower (splitSign s).2 ≠ "inf".toList := literal.not_word (by decide)
    have hinfinity : asciiLower (splitSign s).2 ≠ "infinity".toList := literal.not_word (by decide)
    simp only [hnan, hinf, hinfinity, or_self, if_false, literal.mantissa, literal.split,
      literal.some_digit, Bool.false_eq_true, optionalRun_of_digits? literal.whole_eq,
      optionalRun_of_digits? literal.fraction_eq, exponent_of_exponent? literal.exponent_eq,
      bind, Option.bind_some]
    exact congrArg some literal.value.symm

theorem nonDecimal?_cases {n : Nat} (h : nonDecimal? s = some n) :
    ∃ c cs radix ds, s = '0' :: c :: cs ∧ radix? c = some radix ∧ digits? radix cs = some ds := by
  unfold nonDecimal? at h
  split at h
  · rename_i c cs
    obtain ⟨radix, hradix, h⟩ := Option.bind_eq_some_iff.mp h
    split at h
    · cases h
    obtain ⟨ds, hds, -⟩ := Option.bind_eq_some_iff.mp h
    exact ⟨c, cs, radix, ds, rfl, hradix, hds⟩
  · cases h

theorem radix?_letter {radix : Nat} (h : radix? c = some radix) : PyText.isSpace c = false ∧
    digitVal? c = none ∧ c ≠ '_' ∧ (c != 'e' && c != 'E') = true ∧ (c != '.') = true := by
  unfold radix? at h
  split at h
  all_goals first | decide +kernel | cases h

theorem digitRun_letter (hc : digitVal? c = none) (hunderscore : c ≠ '_') (cs : Text) :
    digitRun ('0' :: c :: cs) = none := by
  have htail : digitRun (c :: cs) = none := by
    unfold digitRun
    split <;> simp_all
  rw [digitRun]
  · simp [htail]
  · exact hunderscore

theorem strip_of_nonDecimal? {n : Nat} (h : nonDecimal? s = some n) : strip s = s := by
  obtain ⟨c, cs, radix, ds, rfl, hradix, hds⟩ := nonDecimal?_cases h
  apply strip_of_isSpace
  simp only [List.forall_mem_cons]
  exact ⟨by decide, (radix?_letter hradix).1, isSpace_digits? hds⟩

/-- The letter of a hexadecimal, octal or binary literal is no digit to Python. -/
theorem pyFloat_of_nonDecimal? {n : Nat} (h : nonDecimal? s = some n) : pyFloat s = none := by
  have hpadding := unpad_of_strip (strip_of_nonDecimal? h)
  obtain ⟨c, cs, radix, ds, rfl, hradix, hds⟩ := nonDecimal?_cases h
  obtain ⟨-, hdigit, hunderscore, hexp, hpoint⟩ := radix?_letter hradix
  have hnan : asciiLower ('0' :: c :: cs) ≠ "nan".toList := asciiLower_ne (by decide) (by decide)
  have hinf : asciiLower ('0' :: c :: cs) ≠ "inf".toList := asciiLower_ne (by decide) (by decide)
  have hinfinity : asciiLower ('0' :: c :: cs) ≠ "infinity".toList :=
    asciiLower_ne (by decide) (by decide)
  have hsign : splitSign ('0' :: c :: cs) = (false, '0' :: c :: cs) := rfl
  have hzero : ('0' != 'e' && '0' != 'E') = true ∧ ('0' != '.') = true := by decide
  unfold pyFloat
  simp only [hpadding, hsign, hnan, hinf, hinfinity, or_self, if_false,
    List.span_eq_takeWhile_dropWhile, List.takeWhile_cons, hexp, hpoint, hzero, if_true,
    List.isEmpty_cons, Bool.false_and, Bool.false_eq_true]
  simp only [optionalRun, List.isEmpty_cons, Bool.false_eq_true, if_false,
    digitRun_letter hdigit hunderscore]
  rfl

theorem number_of_trim (htrim : trim s = s) (hne : s ≠ []) :
    number s = match nonDecimal? s with
      | some n => ofDecimal false n 0
      | none => (decimal? s).getD .nan := by
  have hempty : s.isEmpty = false := by simpa using hne
  simp only [number, htrim, hempty, Bool.false_eq_true, if_false]

/-- `float` accepts the texts of numbers that are not hexadecimal, octal or binary literals,
and as the same numbers. -/
theorem pyFloat_strip_of_number (htrim : trim s = s) (hne : s ≠ []) (h : number s ≠ .nan) :
    strip s = s ∧ pyFloat s = if (nonDecimal? s).isSome then none else some (number s) := by
  have hnumber := number_of_trim htrim hne
  cases hnon : nonDecimal? s with
  | some n => exact ⟨strip_of_nonDecimal? hnon, pyFloat_of_nonDecimal? hnon⟩
  | none =>
    rw [hnon] at hnumber
    cases hdec : decimal? s with
    | none =>
      rw [hdec] at hnumber
      exact absurd hnumber h
    | some x =>
      rw [hdec] at hnumber
      simp only [Option.getD_some] at hnumber
      rw [hnumber]
      exact ⟨strip_of_decimal? hdec, pyFloat_of_decimal? hdec⟩

end Agreement

section Parts
variable {s : Text}

theorem mem_splitOnP {p : Char → Bool} {part : Text} (h : part ∈ s.splitOnP p) :
    ∀ c ∈ part, p c = false := by
  induction s generalizing part with
  | nil =>
    obtain rfl := List.mem_singleton.mp h
    simp
  | cons x s ih =>
    rw [List.splitOnP_cons_eq_if_modifyHead] at h
    by_cases hx : p x = true
    · rw [if_pos hx] at h
      rcases List.mem_cons.mp h with rfl | hmem
      · simp
      · exact ih hmem
    · rw [if_neg hx] at h
      cases hparts : s.splitOnP p with
      | nil => exact absurd hparts (List.splitOnP_ne_nil p s)
      | cons first rest =>
        rw [hparts, List.modifyHead_cons] at h
        rcases List.mem_cons.mp h with rfl | hmem
        · have hfirst := ih (by rw [hparts]; exact List.mem_cons_self)
          exact List.forall_mem_cons.mpr ⟨by simpa using hx, hfirst⟩
        · exact ih (by rw [hparts]; exact List.mem_cons_of_mem _ hmem)

/-- The parts of a split are neither empty nor have white space in them. -/
theorem mem_splitSpaces {part : Text} (h : part ∈ splitSpaces s) :
    part ≠ [] ∧ ∀ c ∈ part, isSpace c = false := by
  obtain ⟨hmem, hne⟩ := List.mem_filter.mp h
  exact ⟨by simpa using hne, mem_splitOnP hmem⟩

theorem trim_of_isSpace (h : ∀ c ∈ s, isSpace c = false) : trim s = s := by
  rw [trim, dropWhile_eq_self.mpr fun c hc => h c (List.mem_of_head? hc)]
  exact rdropWhile_eq_self.mpr fun c hc => h c (List.mem_of_getLast? hc)

end Parts

end JsText
