import Gloora.Lib.Globs
import Gloora.SqliteText

/-!
# LIKE and GLOB as SQLite computes them

`patternCompare` runs over the bytes of the pattern and of the text, and calls itself at
every place where the character behind a wildcard occurs. It is compared with the tokens
that the pattern stands for: it finds a match exactly if there is one, although it gives up
as soon as one of its calls does.
-/

namespace Gloora
set_option autoImplicit false

open PyText Globs

structure CompareInfo where
  matchAll : Nat
  matchOne : Nat
  matchSet : Nat
  noCase : Bool

def globInfo : CompareInfo := ⟨'*'.toNat, '?'.toNat, '['.toNat, false⟩

def likeInfoNorm : CompareInfo := ⟨'%'.toNat, '_'.toNat, 0, true⟩

def likeInfoAlt : CompareInfo := ⟨'%'.toNat, '_'.toNat, 0, false⟩

/-- `sqlite3UpperToLower[(unsigned char)x]` -/
def sqlite3Tolower (x : Nat) : Nat :=
  if 65 ≤ x % 256 ∧ x % 256 ≤ 90 then x % 256 + 32 else x % 256

/-- `x & ~(sqlite3CtypeMap[(unsigned char)x] & 0x20)`; the bit 0x20 marks the small letters. -/
def sqlite3Toupper (x : Nat) : Nat :=
  if 97 ≤ x % 256 ∧ x % 256 ≤ 122 then x - 32 else x

section Loops
variable (info : CompareInfo) (run : List UInt8 → Verdict)

/-- The loop over the wildcards behind a `matchAll`: the character that ends it, what follows
it in the pattern, and what is left of the text; `none` when the text is too short. Where
the loop is entered `matchAll` is not 0, so that it stops at the end of the pattern. -/
def skipWildcards (zPattern zString : List UInt8) : Option (Nat × List UInt8 × List UInt8) :=
  let c := (sqlite3Utf8Read zPattern).1
  if _h : c ≠ 0 ∧ (c = info.matchAll ∨ c = info.matchOne ∧ info.matchOne ≠ 0) then
    if c = info.matchOne then
      if (sqlite3Utf8Read zString).1 = 0 then none
      else skipWildcards (sqlite3Utf8Read zPattern).2 (sqlite3Utf8Read zString).2
    else skipWildcards (sqlite3Utf8Read zPattern).2 zString
  else some (c, (sqlite3Utf8Read zPattern).2, zString)
termination_by zPattern.length
decreasing_by all_goals exact length_read _h.1

/-- The search with `strcspn` for the next character out of `zStop`. -/
def searchStop (zStop : List UInt8) (zString : List UInt8) : Verdict :=
  match _h : strcspn zStop zString with
  | [] => .noWildcardMatch
  | b :: z =>
    if b = 0 then .noWildcardMatch
    else
      match run z with
      | .noMatch => searchStop zStop z
      | bMatch => bMatch
termination_by zString.length
decreasing_by
  have hlength := length_strcspn zStop zString
  rw [_h, List.length_cons] at hlength
  exact hlength

/-- The search for the next character `c`, outside ASCII. -/
def searchCode (c : Nat) (zString : List UInt8) : Verdict :=
  if _h : (sqlite3Utf8Read zString).1 = 0 then .noWildcardMatch
  else if (sqlite3Utf8Read zString).1 ≠ c then searchCode c (sqlite3Utf8Read zString).2
  else
    match run (sqlite3Utf8Read zString).2 with
    | .noMatch => searchCode c (sqlite3Utf8Read zString).2
    | bMatch => bMatch
termination_by zString.length
decreasing_by all_goals exact length_read _h

/-- The search for a place where a set matches: every place is tried. -/
def searchSet (zString : List UInt8) : Verdict :=
  if _h : zString.headD 0 = 0 then .noWildcardMatch
  else
    match run zString with
    | .noMatch => searchSet (skipUtf8 zString)
    | bMatch => bMatch
termination_by zString.length
decreasing_by exact length_skip _h

/-- The search for the character behind the wildcards. -/
def searchChar (c : Nat) (zString : List UInt8) : Verdict :=
  if c < 0x80 then
    if info.noCase then
      searchStop run [.ofNat (sqlite3Toupper c), .ofNat (sqlite3Tolower c)] zString
    else searchStop run [.ofNat c] zString
  else searchCode run c zString

end Loops

theorem setLoop_decreases {c2 : Nat} {z zPattern : List UInt8} (h : ¬ c2 = 0)
    (hz : z.length ≤ zPattern.length) :
    ((sqlite3Utf8Read z).2.length + if (sqlite3Utf8Read z).1 = 0 then 0 else 1) <
      zPattern.length + if c2 = 0 then 0 else 1 := by
  rw [if_neg h]
  split
  · have hle := length_read_le z
    omega
  · have hlt := length_read ‹_›
    omega

/-- The loop over the characters of a set, `c2` being the last one that was read: whether
`c` is among them, and the pattern behind the set; `none` when the set does not end. -/
def setLoop (c c2 prior : Nat) (seen : Bool) (zPattern : List UInt8) :
    Option (Bool × List UInt8) :=
  if c2 = 0 then none
  else if c2 = ']'.toNat then some (seen, zPattern)
  else if c2 = '-'.toNat ∧ zPattern.headD 0 ≠ 0x5d ∧ zPattern.headD 0 ≠ 0 ∧ 0 < prior then
    let high := (sqlite3Utf8Read zPattern).1
    let z := (sqlite3Utf8Read zPattern).2
    setLoop c (sqlite3Utf8Read z).1 0 (seen || prior ≤ c && c ≤ high) (sqlite3Utf8Read z).2
  else
    setLoop c (sqlite3Utf8Read zPattern).1 c2 (seen || c == c2) (sqlite3Utf8Read zPattern).2
termination_by zPattern.length + if c2 = 0 then 0 else 1
decreasing_by
  · exact setLoop_decreases ‹_› (length_read_le zPattern)
  · exact setLoop_decreases ‹_› (Nat.le_refl _)

/-- Whether `c` is in the set that starts behind a `[`, and the pattern behind the set. -/
def readSet (c : Nat) (zPattern : List UInt8) : Option (Bool × List UInt8) :=
  let (c2, z) := sqlite3Utf8Read zPattern
  let invert := c2 == '^'.toNat
  let (c2, z) := if invert then sqlite3Utf8Read z else (c2, z)
  let seen := c2 == ']'.toNat && c == ']'.toNat
  let (c2, z) := if c2 = ']'.toNat then sqlite3Utf8Read z else (c2, z)
  (setLoop c c2 0 seen z).map fun (seen, z) => (seen != invert, z)

/-- Whether a character `c` of the pattern may stand where the text has `c2`. -/
def sameChar (info : CompareInfo) (c c2 : Nat) : Bool :=
  c == c2 || info.noCase && sqlite3Tolower c == sqlite3Tolower c2 && c < 0x80 && c2 < 0x80

theorem length_skipWildcards {info : CompareInfo} {zPattern zString z s : List UInt8} {c : Nat}
    (h : skipWildcards info zPattern zString = some (c, z, s)) :
    z.length ≤ zPattern.length ∧ (c ≠ 0 → z.length < zPattern.length) := by
  fun_induction skipWildcards info zPattern zString with
  | case1 => cases h
  | case2 zPattern zString c' hc _ _ ih =>
    have hlt := Nat.lt_of_le_of_lt (ih h).1 (length_read hc.1)
    exact ⟨Nat.le_of_lt hlt, fun _ => hlt⟩
  | case3 zPattern zString c' hc _ ih =>
    have hlt := Nat.lt_of_le_of_lt (ih h).1 (length_read hc.1)
    exact ⟨Nat.le_of_lt hlt, fun _ => hlt⟩
  | case4 zPattern zString c' hc =>
    rw [Option.some.injEq, Prod.mk.injEq, Prod.mk.injEq] at h
    rw [← h.1, ← h.2.1]
    exact ⟨length_read_le _, length_read⟩

theorem length_setLoop {c c2 prior : Nat} {seen found : Bool} {zPattern z : List UInt8}
    (h : setLoop c c2 prior seen zPattern = some (found, z)) : z.length ≤ zPattern.length := by
  fun_induction setLoop c c2 prior seen zPattern with
  | case1 => cases h
  | case2 =>
    cases h
    exact Nat.le_refl _
  | case3 c2 prior seen zPattern _ _ _ high z' ih =>
    have h1 := length_read_le zPattern
    have h2 := length_read_le z'
    exact (ih h).trans (h2.trans h1)
  | case4 c2 prior seen zPattern _ _ _ ih => exact (ih h).trans (length_read_le _)

theorem length_readSet {c : Nat} {found : Bool} {zPattern z : List UInt8}
    (h : readSet c zPattern = some (found, z)) : z.length ≤ zPattern.length := by
  have hread : ∀ (p : Prop) [Decidable p] (x : Nat × List UInt8),
      x.2.length ≤ zPattern.length →
        (if p then sqlite3Utf8Read x.2 else (x.1, x.2)).2.length ≤ zPattern.length := by
    intro p _ x hx
    split
    · exact (length_read_le _).trans hx
    · exact hx
  rw [readSet, Option.map_eq_some_iff] at h
  obtain ⟨⟨seen, rest⟩, hloop, heq⟩ := h
  cases heq
  exact (length_setLoop hloop).trans (hread _ _ (hread _ _ (length_read_le _)))

def patternCompare (info : CompareInfo) (matchOther : Nat) (zPattern zString : List UInt8) :
    Verdict :=
  let c := (sqlite3Utf8Read zPattern).1
  let z := (sqlite3Utf8Read zPattern).2
  if c = 0 then if zString.headD 0 = 0 then .isMatch else .noMatch
  else if c = info.matchAll then
    match _h : skipWildcards info z zString with
    | none => .noWildcardMatch
    | some (c, z, zString) =>
      if c = 0 then .isMatch
      else if c = matchOther then
        if info.matchSet = 0 then
          let c := (sqlite3Utf8Read z).1
          if c = 0 then .noWildcardMatch
          else
            searchChar info (fun s => patternCompare info matchOther (sqlite3Utf8Read z).2 s) c
              zString
        else searchSet (fun s => patternCompare info matchOther (.ofNat matchOther :: z) s) zString
      else searchChar info (fun s => patternCompare info matchOther z s) c zString
  else if c = matchOther then
    if info.matchSet = 0 then
      -- The escaped character stands for itself, also where it is a `matchOne`.
      let c := (sqlite3Utf8Read z).1
      if c = 0 then .noMatch
      else if sameChar info c (sqlite3Utf8Read zString).1 then
        patternCompare info matchOther (sqlite3Utf8Read z).2 (sqlite3Utf8Read zString).2
      else .noMatch
    else
      let c := (sqlite3Utf8Read zString).1
      if c = 0 then .noMatch
      else
        match _h : readSet c z with
        | some (true, z) => patternCompare info matchOther z (sqlite3Utf8Read zString).2
        | _ => .noMatch
  else
    let c2 := (sqlite3Utf8Read zString).1
    if sameChar info c c2 || c == info.matchOne && c2 != 0 then
      patternCompare info matchOther z (sqlite3Utf8Read zString).2
    else .noMatch
termination_by zPattern.length
decreasing_by
  all_goals have hread : (sqlite3Utf8Read zPattern).2.length < zPattern.length := length_read ‹_›
  · exact ((length_read_le _).trans (length_skipWildcards _h).1).trans_lt hread
  · exact Nat.lt_of_le_of_lt ((length_skipWildcards _h).2 ‹_›) hread
  · exact (length_skipWildcards _h).1.trans_lt hread
  · exact (length_read_le _).trans_lt hread
  · exact (length_readSet _h).trans_lt hread
  · exact hread

/-- The ranges between the brackets of a set, a character on its own being the range from it
to itself, and the pattern behind the set; `none` when the set does not end. -/
def ranges : Option Nat → List Nat → Option (List (Nat × Nat) × List Nat)
  | _, [] => none
  | _, [c] => if c = ']'.toNat then some ([], []) else none
  | prior, c :: high :: p =>
    if c = ']'.toNat then some ([], high :: p)
    else
      match if c = '-'.toNat ∧ high ≠ ']'.toNat then prior else none with
      | some low => (ranges none p).map fun r => ((low, high) :: r.1, r.2)
      | none => (ranges (some c) (high :: p)).map fun r => ((c, c) :: r.1, r.2)

def listed (rs : List (Nat × Nat)) (c : Nat) : Bool := rs.any fun r => r.1 ≤ c && c ≤ r.2

/-- A `]` right at the front is a member of the set. -/
def setMembers : List Nat → Option (List (Nat × Nat) × List Nat)
  | [] => none
  | c :: p =>
    if c = ']'.toNat then (ranges none p).map fun r => ((c, c) :: r.1, r.2)
    else ranges none (c :: p)

/-- What a set accepts, and the pattern behind it. -/
def bracket : List Nat → Option ((Nat → Bool) × List Nat)
  | [] => none
  | c :: p =>
    if c = '^'.toNat then (setMembers p).map fun r => (fun d => !listed r.1 d, r.2)
    else (setMembers (c :: p)).map fun r => (listed r.1, r.2)

theorem length_ranges {prior : Option Nat} {p rest : List Nat} {rs : List (Nat × Nat)}
    (h : ranges prior p = some (rs, rest)) : rest.length ≤ p.length := by
  fun_induction ranges prior p generalizing rs rest with
  | case1 => cases h
  | case2 => cases h; simp
  | case3 => cases h
  | case4 => cases h; simp
  | case5 prior c high p hc low hlow ih =>
    obtain ⟨⟨rs', rest'⟩, hr, heq⟩ := Option.map_eq_some_iff.mp h
    have hle := ih hr
    rw [Prod.mk.injEq] at heq
    rw [← heq.2]
    simp only [List.length_cons]
    omega
  | case6 prior c high p hc hlow ih =>
    obtain ⟨⟨rs', rest'⟩, hr, heq⟩ := Option.map_eq_some_iff.mp h
    have hle := ih hr
    rw [Prod.mk.injEq] at heq
    rw [← heq.2]
    simp only [List.length_cons] at hle ⊢
    omega

theorem length_setMembers {p rest : List Nat} {rs : List (Nat × Nat)}
    (h : setMembers p = some (rs, rest)) : rest.length ≤ p.length := by
  cases p with
  | nil => cases h
  | cons c p =>
    rw [setMembers] at h
    split at h
    · obtain ⟨r, hr, heq⟩ := Option.map_eq_some_iff.mp h
      rw [Prod.mk.injEq] at heq
      rw [← heq.2]
      exact Nat.le_succ_of_le (length_ranges hr)
    · exact length_ranges h

theorem length_bracket {p rest : List Nat} {accepts : Nat → Bool}
    (h : bracket p = some (accepts, rest)) : rest.length ≤ p.length := by
  cases p with
  | nil => cases h
  | cons c p =>
    rw [bracket] at h
    split at h
    · obtain ⟨r, hr, heq⟩ := Option.map_eq_some_iff.mp h
      rw [Prod.mk.injEq] at heq
      rw [← heq.2]
      exact Nat.le_succ_of_le (length_setMembers hr)
    · obtain ⟨r, hr, heq⟩ := Option.map_eq_some_iff.mp h
      rw [Prod.mk.injEq] at heq
      rw [← heq.2]
      exact length_setMembers hr

/-- A token that no character passes: a set that does not end, an escape at the end. -/
def dead : Token Nat := .one fun _ => false

/-- The tokens that a pattern stands for; `matchOther` opens a set, or it escapes the next
character when the pattern has no sets. -/
def tokens (info : CompareInfo) (matchOther : Nat) : List Nat → List (Token Nat)
  | [] => []
  | c :: p =>
    if c = info.matchAll then .any :: tokens info matchOther p
    else if c = matchOther then
      if info.matchSet = 0 then
        match p with
        | [] => [dead]
        | e :: p => .one (sameChar info e) :: tokens info matchOther p
      else
        match _h : bracket p with
        | none => [dead]
        | some (accepts, rest) => .one accepts :: tokens info matchOther rest
    else .one (fun d => sameChar info c d || c == info.matchOne) :: tokens info matchOther p
termination_by p => p.length
decreasing_by
  · exact Nat.lt_succ_self _
  · exact Nat.lt_succ_of_lt (Nat.lt_succ_self _)
  · exact Nat.lt_succ_of_le (length_bracket _h)
  · exact Nat.lt_succ_self _

section Sets
variable {c c2 prior : Nat} {seen : Bool} {p : List Nat} {z : List UInt8}

theorem ranges_close (prior : Option Nat) (p : List Nat) :
    ranges prior (']'.toNat :: p) = some ([], p) := by
  cases p <;> simp [ranges]

theorem ranges_single (prior : Option Nat) (hc : c ≠ ']'.toNat)
    (h : ∀ low high q, prior = some low → p = high :: q → c = '-'.toNat → high = ']'.toNat) :
    ranges prior (c :: p) = (ranges (some c) p).map fun r => ((c, c) :: r.1, r.2) := by
  cases p with
  | nil =>
    have hend : ranges prior [c] = none := by rw [ranges, if_neg hc]
    exact hend
  | cons high p =>
    rw [ranges, if_neg hc]
    have hnone : (if c = '-'.toNat ∧ high ≠ ']'.toNat then prior else none) = none := by
      split
      · rename_i hrange
        cases hprior : prior with
        | none => rfl
        | some low => exact absurd (h low high p hprior rfl hrange.1) hrange.2
      · rfl
    rw [hnone]

theorem ranges_range {low high : Nat} (hhigh : high ≠ ']'.toNat) :
    ranges (some low) ('-'.toNat :: high :: p) =
      (ranges none p).map fun r => ((low, high) :: r.1, r.2) := by
  rw [ranges, if_neg (by decide), if_pos ⟨rfl, hhigh⟩]

theorem listed_self {r : Nat} {rs : List (Nat × Nat)} :
    listed ((r, r) :: rs) c = (c == r || listed rs c) := by
  have hself : (decide (r ≤ c) && decide (c ≤ r)) = (c == r) := by
    rw [Bool.eq_iff_iff]
    simp only [Bool.and_eq_true, decide_eq_true_eq, beq_iff_eq]
    omega
  simp only [listed, List.any_cons, hself]

/-- The set loop against the ranges: `c2` has been read already, and there is no range from
a `prior` of 0. -/
theorem setLoop_ranges : (setLoop c c2 prior seen z).map (fun r => (r.1, codes r.2)) =
    (ranges (if prior = 0 then none else some prior) (if c2 = 0 then [] else c2 :: codes z)).map
      fun r => (seen || listed r.1 c, r.2) := by
  fun_induction setLoop c c2 prior seen z with
  | case1 => simp [ranges]
  | case2 prior seen z h0 =>
    rw [if_neg h0, ranges_close]
    simp [listed]
  | case3 c2 prior seen z h0 hclose hrange high z' ih =>
    obtain ⟨rfl, hhigh, hne, hprior⟩ := hrange
    have hread : (sqlite3Utf8Read z).1 ≠ 0 := fun h => hne (read_eq_zero.mp h)
    have hhigh' : (sqlite3Utf8Read z).1 ≠ ']'.toNat :=
      fun h => hhigh ((read_eq_ascii (by decide)).mp h)
    rw [ih, if_neg h0, if_neg (Nat.ne_of_gt hprior), codes_read hread, ranges_range hhigh',
      if_pos rfl, ← codes, Option.map_map]
    congr 1
    funext r
    simp only [Function.comp_apply, listed, List.any_cons, Bool.or_assoc]
    rfl
  | case4 c2 prior seen z h0 hclose hrange ih =>
    have hsingle := ranges_single (if prior = 0 then none else some prior) (p := codes z) hclose ?_
    · rw [ih, if_neg h0, if_neg h0, hsingle, ← codes, Option.map_map]
      congr 1
      funext r
      simp only [Function.comp_apply, listed_self, Bool.or_assoc]
    · intro low high q hlow hq hdash
      by_contra hhigh
      have hpos : prior ≠ 0 := by
        intro h
        simp [h] at hlow
      have hne : (sqlite3Utf8Read z).1 ≠ 0 := by
        intro h
        simp [codes_end h] at hq
      rw [codes_read hne, List.cons.injEq] at hq
      apply hrange
      refine ⟨hdash, ?_, fun h => hne (read_eq_zero.mpr h), Nat.pos_of_ne_zero hpos⟩
      intro h
      exact hhigh (hq.1 ▸ (read_eq_ascii (by decide)).mpr h)

theorem setMembers_close : setMembers (']'.toNat :: p) =
    (ranges none p).map fun r => ((']'.toNat, ']'.toNat) :: r.1, r.2) := by
  rw [setMembers, if_pos rfl]

/-- From the first character of a set on. -/
theorem setLoop_setMembers :
    (let seen := (sqlite3Utf8Read z).1 == ']'.toNat && c == ']'.toNat
      let r := if (sqlite3Utf8Read z).1 = ']'.toNat then sqlite3Utf8Read (sqlite3Utf8Read z).2
        else sqlite3Utf8Read z
      (setLoop c r.1 0 seen r.2).map fun r => (r.1, codes r.2)) =
    (setMembers (codes z)).map fun r => (listed r.1 c, r.2) := by
  dsimp only
  rw [setLoop_ranges, if_pos rfl]
  by_cases hclose : (sqlite3Utf8Read z).1 = ']'.toNat
  · have hne : (sqlite3Utf8Read z).1 ≠ 0 := by
      rw [hclose]
      decide
    rw [if_pos hclose, ← codes, codes_read hne, hclose, setMembers_close, Option.map_map]
    congr 1
    funext r
    simp only [Function.comp_apply, listed_self, BEq.rfl, Bool.true_and]
  · rw [if_neg hclose, ← codes]
    have hseen : ((sqlite3Utf8Read z).1 == ']'.toNat) = false := beq_eq_false_iff_ne.mpr hclose
    simp only [hseen, Bool.false_and, Bool.false_or]
    by_cases hend : (sqlite3Utf8Read z).1 = 0
    · rw [codes_end hend]
      rfl
    · rw [codes_read hend, setMembers, if_neg hclose]

/-- A set read from its first character on, negated or not. -/
theorem setLoop_negated (invert : Bool) :
    ((let seen := (sqlite3Utf8Read z).1 == ']'.toNat && c == ']'.toNat
      let r := if (sqlite3Utf8Read z).1 = ']'.toNat then sqlite3Utf8Read (sqlite3Utf8Read z).2
        else sqlite3Utf8Read z
      setLoop c r.1 0 seen r.2).map fun r => (r.1 != invert, r.2)).map
        (fun r => (r.1, codes r.2)) =
    (setMembers (codes z)).map fun r => (listed r.1 c != invert, r.2) := by
  have hmembers := congrArg (Option.map fun r : Bool × List Nat => (r.1 != invert, r.2))
    (setLoop_setMembers (c := c) (z := z))
  simpa only [Option.map_map, Function.comp_def] using hmembers

theorem readSet_bracket : (readSet c z).map (fun r => (r.1, codes r.2)) =
    (bracket (codes z)).map fun r => (r.1 c, r.2) := by
  by_cases hinvert : (sqlite3Utf8Read z).1 = '^'.toNat
  · have hne : (sqlite3Utf8Read z).1 ≠ 0 := by
      rw [hinvert]
      decide
    have hnegated := setLoop_negated (c := c) (z := (sqlite3Utf8Read z).2) true
    rw [codes_read hne, bracket, if_pos hinvert, Option.map_map]
    simp only [readSet, hinvert, BEq.rfl, if_true]
    simpa [Function.comp_def] using hnegated
  · have hplain := setLoop_negated (c := c) (z := z) false
    have hbracket : bracket (codes z) = (setMembers (codes z)).map fun r => (listed r.1, r.2) := by
      by_cases hend : (sqlite3Utf8Read z).1 = 0
      · rw [codes_end hend]
        rfl
      · rw [codes_read hend, bracket, if_neg hinvert]
    have hfalse : ((sqlite3Utf8Read z).1 == '^'.toNat) = false := beq_eq_false_iff_ne.mpr hinvert
    rw [hbracket, Option.map_map]
    simp only [readSet, hfalse, Bool.false_eq_true, if_false]
    simpa [Function.comp_def] using hplain

theorem readSet_some {found : Bool} {zRest : List UInt8}
    (h : readSet c z = some (found, zRest)) :
    ∃ accepts, bracket (codes z) = some (accepts, codes zRest) ∧ accepts c = found := by
  have hbracket := readSet_bracket (c := c) (z := z)
  rw [h] at hbracket
  obtain ⟨⟨accepts, rest⟩, hr, heq⟩ := Option.map_eq_some_iff.mp hbracket.symm
  rw [Prod.mk.injEq] at heq
  obtain ⟨hfound, rfl⟩ := heq
  exact ⟨accepts, hr, hfound⟩

theorem bracket_some {accepts : Nat → Bool} {rest : List Nat}
    (h : bracket (codes z) = some (accepts, rest)) :
    ∃ zRest, readSet c z = some (accepts c, zRest) := by
  have hbracket := readSet_bracket (c := c) (z := z)
  rw [h] at hbracket
  obtain ⟨⟨found, zRest⟩, hr, heq⟩ := Option.map_eq_some_iff.mp hbracket
  rw [Prod.mk.injEq] at heq
  have hfound : found = accepts c := heq.1
  exact ⟨zRest, hfound ▸ hr⟩

end Sets

section Searches
variable {info : CompareInfo} {run : List UInt8 → Verdict} {q : List (Token Nat)} {c : Nat}
  {zStop zString : List UInt8} {f : Nat → Bool}

theorem strcspn_found {b : UInt8} {z : List UInt8} (h : strcspn zStop zString = b :: z)
    (h0 : b ≠ 0) : b ∈ zStop := by
  induction zString with
  | nil => cases h
  | cons a zString ih =>
    rw [strcspn] at h
    split at h
    · rename_i ha
      cases h
      exact ha.resolve_left h0
    · exact ih h

theorem searchStop_settles (hstop : ∀ a ∈ zStop, a ≠ 0 ∧ a < 0x80)
    (hf : ∀ d, f d = true ↔ d ∈ zStop.map UInt8.toNat)
    (hrun : ∀ z, Decides q (codes z) (run z)) :
    Settles (.one f :: q) (codes zString) (searchStop run zStop zString) := by
  have hpasses : ∀ d, passes zStop d = true → f d = false := by
    intro d hd
    rw [Bool.eq_false_iff, ne_eq, hf]
    simpa [passes] using hd
  have hcodes := codes_strcspn fun a ha => (hstop a ha).2
  fun_induction searchStop run zStop zString with
  | case1 zString hnil =>
    apply Settles.dropWhile hpasses
    rw [← hcodes, hnil, codes_nil]
    exact settles_end (hopeless_nil [] List.suffix_rfl)
  | case2 zString z hend =>
    apply Settles.dropWhile hpasses
    rw [← hcodes, hend, codes_eq_nil.mpr rfl]
    exact settles_end (hopeless_nil [] List.suffix_rfl)
  | case3 zString b z hfound h0 hno ih =>
    have hmem := strcspn_found hfound h0
    apply Settles.dropWhile hpasses
    rw [← hcodes, hfound, codes_ascii h0 (hstop b hmem).2]
    exact Settles.further (hno ▸ hrun z) ih
  | case4 zString b z hfound h0 hv =>
    have hmem := strcspn_found hfound h0
    apply Settles.dropWhile hpasses
    rw [← hcodes, hfound, codes_ascii h0 (hstop b hmem).2]
    exact Settles.here ((hf _).mpr (List.mem_map_of_mem hmem)) (hrun z) hv

theorem searchCode_settles (hf : ∀ d, f d = true ↔ d = c)
    (hrun : ∀ z, Decides q (codes z) (run z)) :
    Settles (.one f :: q) (codes zString) (searchCode run c zString) := by
  fun_induction searchCode run c zString with
  | case1 zString hend =>
    rw [codes_end hend]
    exact settles_end (hopeless_nil [] List.suffix_rfl)
  | case2 zString hread hne ih =>
    rw [codes_read hread]
    apply Settles.cons _ ih
    apply decides_refused
    rw [Bool.eq_false_iff]
    exact (hf _).not.mpr hne
  | case3 zString hread heq hno ih =>
    rw [codes_read hread]
    exact Settles.further (hno ▸ hrun _) ih
  | case4 zString hread heq hv =>
    rw [codes_read hread]
    exact Settles.here ((hf _).mpr (not_not.mp heq)) (hrun _) hv

theorem searchSet_settles (hnil : ¬ Matches q []) (hrun : ∀ z, Decides q (codes z) (run z)) :
    Settles q (codes zString) (searchSet run zString) := by
  fun_induction searchSet run zString with
  | case1 zString hend =>
    rw [codes_eq_nil.mpr hend]
    exact settles_end hnil
  | case2 zString hend hno ih =>
    have hhere : Decides q (codes zString) .noMatch := hno ▸ hrun zString
    have hread : (sqlite3Utf8Read zString).1 ≠ 0 := fun h => hend (read_eq_zero.mp h)
    rw [codes_read hread] at hhere ⊢
    rw [read_rest] at hhere ⊢
    exact Settles.cons hhere ih
  | case3 zString hend hv => exact (hrun zString).settles hv

/-- The two letters that `strcspn` looks for are those that may stand for `c`. -/
theorem sameChar_stop (hc : c < 0x80) (hcase : info.noCase = true) (d : Nat) :
    sameChar info c d = true ↔ d = sqlite3Toupper c ∨ d = sqlite3Tolower c := by
  simp only [sameChar, hcase, sqlite3Tolower, sqlite3Toupper, Bool.or_eq_true, Bool.and_eq_true,
    beq_iff_eq, decide_eq_true_eq, true_and]
  split_ifs <;> omega

theorem sameChar_self (h : 0x80 ≤ c ∨ info.noCase = false) (d : Nat) :
    sameChar info c d = true ↔ d = c := by
  simp only [sameChar, Bool.or_eq_true, Bool.and_eq_true, beq_iff_eq, decide_eq_true_eq]
  constructor
  · intro hsame
    cases hsame with
    | inl heq => exact heq.symm
    | inr hcase =>
      cases h with
      | inl hlarge => exact absurd hcase.1.2 (Nat.not_lt.mpr hlarge)
      | inr hno => simp [hno] at hcase
  · exact fun h => .inl h.symm

theorem byte_ofNat {n : Nat} (h0 : n ≠ 0) (hn : n < 0x80) :
    (UInt8.ofNat n ≠ 0 ∧ UInt8.ofNat n < 0x80) ∧ (UInt8.ofNat n).toNat = n := by
  have hbyte : (UInt8.ofNat n).toNat = n := (ascii_ofNat (Nat.le_of_lt_succ hn)).2
  refine ⟨⟨?_, ?_⟩, hbyte⟩
  · intro hzero
    rw [hzero] at hbyte
    exact h0 hbyte.symm
  · rw [UInt8.lt_iff_toNat_lt, hbyte]
    exact hn

theorem searchChar_settles (h0 : c ≠ 0) (hrun : ∀ z, Decides q (codes z) (run z)) :
    Settles (.one (sameChar info c) :: q) (codes zString) (searchChar info run c zString) := by
  unfold searchChar
  split_ifs with hc hcase
  · have hbytes : sqlite3Toupper c < 128 ∧ sqlite3Toupper c ≠ 0 ∧ sqlite3Tolower c < 128 ∧
        sqlite3Tolower c ≠ 0 := by
      unfold sqlite3Toupper sqlite3Tolower
      split_ifs <;> omega
    have hupper := byte_ofNat hbytes.2.1 hbytes.1
    have hlower := byte_ofNat hbytes.2.2.2 hbytes.2.2.1
    apply searchStop_settles _ _ hrun
    · intro a ha
      simp only [List.mem_cons, List.not_mem_nil, or_false] at ha
      rcases ha with rfl | rfl
      · exact hupper.1
      · exact hlower.1
    · intro d
      rw [sameChar_stop hc hcase, List.map_cons, List.map_cons, List.map_nil, hupper.2, hlower.2]
      simp only [List.mem_cons, List.not_mem_nil, or_false]
  · have hbyte := byte_ofNat h0 hc
    apply searchStop_settles _ _ hrun
    · intro a ha
      rw [List.mem_singleton.mp ha]
      exact hbyte.1
    · intro d
      rw [sameChar_self (.inr (Bool.eq_false_iff.mpr hcase)), List.map_cons, List.map_nil, hbyte.2,
        List.mem_singleton]
  · exact searchCode_settles (sameChar_self (.inl (Nat.le_of_not_lt hc))) hrun

end Searches

/-- What `likeFunc` makes sure of before it calls `patternCompare`. -/
structure CompareInfo.Fits (info : CompareInfo) (matchOther : Nat) : Prop where
  one : info.matchOne ≠ 0 → info.matchOne ≠ info.matchAll ∧ info.matchOne ≠ matchOther
  set : info.matchSet ≠ 0 → matchOther ≠ 0 ∧ matchOther < 0x80

section Main
variable {info : CompareInfo} {matchOther : Nat} {c : Nat} {p : List Nat}
  {z zPattern zString : List UInt8} {v : Verdict}

theorem tokens_one (h : info.Fits matchOther) (h0 : info.matchOne ≠ 0) :
    tokens info matchOther (info.matchOne :: p) =
      .one (fun d => sameChar info info.matchOne d || info.matchOne == info.matchOne) ::
        tokens info matchOther p := by
  rw [tokens.eq_def]
  simp only [if_neg (h.one h0).1, if_neg (h.one h0).2]

theorem tokens_all : tokens info matchOther (info.matchAll :: p) =
    .any :: tokens info matchOther p := by
  rw [tokens.eq_def]
  simp only [if_true]

theorem tokens_escape {e : Nat} (hall : matchOther ≠ info.matchAll) (hset : info.matchSet = 0) :
    tokens info matchOther (matchOther :: e :: p) =
      .one (sameChar info e) :: tokens info matchOther p := by
  rw [tokens.eq_def]
  simp only [if_neg hall, if_true, if_pos hset]

theorem tokens_escape_end (hall : matchOther ≠ info.matchAll) (hset : info.matchSet = 0) :
    tokens info matchOther [matchOther] = [dead] := by
  rw [tokens.eq_def]
  simp only [if_neg hall, if_true, if_pos hset]

theorem tokens_set (hall : matchOther ≠ info.matchAll) (hset : info.matchSet ≠ 0) :
    tokens info matchOther (matchOther :: p) =
      match bracket p with
      | none => [dead]
      | some (accepts, rest) => .one accepts :: tokens info matchOther rest := by
  rw [tokens.eq_def]
  simp only [if_neg hall, if_true, if_neg hset]
  cases hbracket : bracket p <;> rfl

theorem tokens_char (hall : c ≠ info.matchAll) (hother : c ≠ matchOther) :
    tokens info matchOther (c :: p) =
      .one (fun d => sameChar info c d || c == info.matchOne) :: tokens info matchOther p := by
  rw [tokens.eq_def]
  simp only [if_neg hall, if_neg hother]

theorem not_matches_set (hall : matchOther ≠ info.matchAll) (hset : info.matchSet ≠ 0) :
    ¬ Matches (tokens info matchOther (matchOther :: p)) [] := by
  rw [tokens_set hall hset]
  cases bracket p <;> exact hopeless_nil [] List.suffix_rfl

theorem sameChar_zero (h0 : c ≠ 0) : sameChar info c 0 = false := by
  have hlower : c < 0x80 → sqlite3Tolower c ≠ sqlite3Tolower 0 := by
    intro hc
    unfold sqlite3Tolower
    split_ifs <;> omega
  rw [Bool.eq_false_iff]
  intro h
  simp only [sameChar, Bool.or_eq_true, Bool.and_eq_true, beq_iff_eq, decide_eq_true_eq] at h
  rcases h with h | h
  · exact h0 h
  · exact hlower h.1.2 h.1.1.2

theorem settles_read_one (h : info.Fits matchOther) (hc : (sqlite3Utf8Read zPattern).1 ≠ 0)
    (hone : (sqlite3Utf8Read zPattern).1 = info.matchOne)
    (hread : (sqlite3Utf8Read zString).1 ≠ 0) :
    Settles (tokens info matchOther (codes zPattern)) (codes zString) v ↔
      Settles (tokens info matchOther (codes (sqlite3Utf8Read zPattern).2))
        (codes (sqlite3Utf8Read zString).2) v := by
  rw [codes_read hc, hone, tokens_one h (hone ▸ hc), codes_read hread, settles_one]
  simp

theorem settles_read_all (hc : (sqlite3Utf8Read zPattern).1 ≠ 0)
    (hall : (sqlite3Utf8Read zPattern).1 = info.matchAll) :
    Settles (tokens info matchOther (codes zPattern)) (codes zString) v ↔
      Settles (tokens info matchOther (codes (sqlite3Utf8Read zPattern).2)) (codes zString) v := by
  rw [codes_read hc, hall, tokens_all, settles_any]

theorem skipWildcards_none (h : info.Fits matchOther)
    (hskip : skipWildcards info zPattern zString = none) :
    Settles (tokens info matchOther (codes zPattern)) (codes zString) .noWildcardMatch := by
  fun_induction skipWildcards info zPattern zString with
  | case1 zPattern zString c hc heq hend =>
    have hone : (sqlite3Utf8Read zPattern).1 = info.matchOne := heq
    rw [codes_read hc.1, hone, tokens_one h (hone ▸ hc.1), codes_end hend]
    exact settles_end (hopeless_nil [] List.suffix_rfl)
  | case2 zPattern zString c hc heq hread ih =>
    exact (settles_read_one h hc.1 heq hread).mpr (ih hskip)
  | case3 zPattern zString c hc hne ih =>
    exact (settles_read_all hc.1 (hc.2.resolve_right fun h => hne h.1)).mpr (ih hskip)
  | case4 => cases hskip

/-- The wildcards that were skipped change nothing, and another character follows them. -/
theorem skipWildcards_some {s : List UInt8} (h : info.Fits matchOther)
    (hskip : skipWildcards info zPattern zString = some (c, z, s)) :
    (c ≠ 0 → c ≠ info.matchAll ∧ c ≠ info.matchOne) ∧
      (Settles (tokens info matchOther (if c = 0 then [] else c :: codes z)) (codes s) v →
        Settles (tokens info matchOther (codes zPattern)) (codes zString) v) := by
  fun_induction skipWildcards info zPattern zString with
  | case1 => cases hskip
  | case2 zPattern zString c' hc heq hread ih =>
    obtain ⟨hother, hsettles⟩ := ih hskip
    exact ⟨hother, fun hv => (settles_read_one h hc.1 heq hread).mpr (hsettles hv)⟩
  | case3 zPattern zString c' hc hne ih =>
    obtain ⟨hother, hsettles⟩ := ih hskip
    have hall := hc.2.resolve_right fun h => hne h.1
    exact ⟨hother, fun hv => (settles_read_all hc.1 hall).mpr (hsettles hv)⟩
  | case4 zPattern zString c' hc =>
    rw [Option.some.injEq, Prod.mk.injEq, Prod.mk.injEq] at hskip
    obtain ⟨hcc, rfl, rfl⟩ := hskip
    rw [← hcc, codes.eq_def zPattern]
    refine ⟨?_, id⟩
    intro h0
    refine ⟨fun hall => hc ⟨h0, .inl hall⟩, ?_⟩
    intro hone
    exact hc ⟨h0, .inr ⟨hone, fun hzero => h0 (hone.trans hzero)⟩⟩

/-- A run in front: what settles the text behind the wildcards decides the whole. -/
theorem decides_star {zRest zText : List UInt8} (h : info.Fits matchOther)
    (hread : (sqlite3Utf8Read zPattern).1 ≠ 0)
    (hall : (sqlite3Utf8Read zPattern).1 = info.matchAll)
    (hskip : skipWildcards info (sqlite3Utf8Read zPattern).2 zString = some (c, zRest, zText))
    (hv : Settles (tokens info matchOther (if c = 0 then [] else c :: codes zRest))
      (codes zText) v) :
    Decides (tokens info matchOther (codes zPattern)) (codes zString) v := by
  rw [codes_read hread, hall, tokens_all]
  exact ((skipWildcards_some h hskip).2 hv).1

/-- The main theorem on `patternCompare`, by induction on the pattern. -/
theorem patternCompare_decides (h : info.Fits matchOther) :
    Decides (tokens info matchOther (codes zPattern)) (codes zString)
      (patternCompare info matchOther zPattern zString) := by
  fun_induction patternCompare info matchOther zPattern zString with
  | case1 zPattern zString c hc hend =>
    rw [codes_end hc, codes_eq_nil.mpr hend, tokens.eq_def]
    exact Matches.nil
  | case2 zPattern zString c hc hend =>
    rw [codes_end hc, tokens.eq_def]
    exact fun hmatch => hend (codes_eq_nil.mp (matches_nil.mp hmatch))
  | case3 zPattern zString c z hc hall hskip =>
    rw [codes_read hc, show (sqlite3Utf8Read zPattern).1 = info.matchAll from hall, tokens_all]
    exact (skipWildcards_none h hskip).1
  | case4 zPattern zString c z hc hall zRest zText hskip =>
    apply decides_star h hc hall hskip
    rw [if_pos rfl, tokens.eq_def]
    exact settles_all _
  | case5 zPattern zString c z hc hall zRest zText hset c' hend hskip h0 =>
    have hother := (skipWildcards_some (v := .isMatch) h hskip).1 h0
    apply decides_star h hc hall hskip
    rw [if_neg h0, codes_end hend, tokens_escape_end hother.1 hset]
    apply (decides_never (fun _ => rfl) (by decide)).settles
    decide
  | case6 zPattern zString c z hc hall zRest zText hset c' hread hskip h0 ih =>
    have hother := (skipWildcards_some (v := .isMatch) h hskip).1 h0
    apply decides_star h hc hall hskip
    rw [if_neg h0, codes_read hread, tokens_escape hother.1 hset]
    exact searchChar_settles hread ih
  | case7 zPattern zString c z hc hall zRest zText hset hskip h0 ih =>
    have hother := (skipWildcards_some (v := .isMatch) h hskip).1 h0
    have hbyte := byte_ofNat h0 (h.set hset).2
    apply decides_star h hc hall hskip
    rw [if_neg h0]
    rw [codes_ascii hbyte.1.1 hbyte.1.2, hbyte.2] at ih
    exact searchSet_settles (not_matches_set hother.1 hset) ih
  | case8 zPattern zString c z hc hall c' zRest zText hskip h0 hne ih =>
    have hother := (skipWildcards_some (v := .isMatch) h hskip).1 h0
    have haccepts : (fun d => sameChar info c' d || c' == info.matchOne) = sameChar info c' := by
      funext d
      simp [hother.2]
    apply decides_star h hc hall hskip
    rw [if_neg h0, tokens_char hother.1 hne, haccepts]
    exact searchChar_settles h0 ih
  | case9 zPattern zString c z hc hall hesc hset c' hend =>
    have hother : (sqlite3Utf8Read zPattern).1 = matchOther := hesc
    rw [codes_read hc, hother, codes_end hend, tokens_escape_end (hother ▸ hall) hset]
    exact decides_never (fun _ => rfl) (by decide)
  | case10 zPattern zString c z hc hall hesc hset c' hread hsame ih =>
    have hother : (sqlite3Utf8Read zPattern).1 = matchOther := hesc
    have htext : (sqlite3Utf8Read zString).1 ≠ 0 := by
      intro hzero
      simp [hzero, sameChar_zero hread] at hsame
    rw [codes_read hc, hother, codes_read hread, tokens_escape (hother ▸ hall) hset,
      codes_read htext]
    exact Decides.one hsame ih
  | case11 zPattern zString c z hc hall hesc hset c' hread hsame =>
    have hother : (sqlite3Utf8Read zPattern).1 = matchOther := hesc
    rw [codes_read hc, hother, codes_read hread, tokens_escape (hother ▸ hall) hset]
    by_cases htext : (sqlite3Utf8Read zString).1 = 0
    · rw [codes_end htext]
      exact decides_short
    · rw [codes_read htext]
      exact decides_refused (Bool.eq_false_iff.mpr hsame)
  | case12 zPattern zString c hc hall hesc hset c' hend =>
    have hother : (sqlite3Utf8Read zPattern).1 = matchOther := hesc
    rw [codes_read hc, hother, codes_end hend]
    exact not_matches_set (hother ▸ hall) hset
  | case13 zPattern zString c z hc hall hesc hset c' htext zRest hmember ih =>
    have hother : (sqlite3Utf8Read zPattern).1 = matchOther := hesc
    obtain ⟨accepts, hset', haccepts⟩ := readSet_some hmember
    rw [codes_read hc, hother, codes_read htext, tokens_set (hother ▸ hall) hset, hset']
    exact Decides.one haccepts ih
  | case14 zPattern zString c z hc hall hesc hset c' htext hmember =>
    have hother : (sqlite3Utf8Read zPattern).1 = matchOther := hesc
    rw [codes_read hc, hother, codes_read htext, tokens_set (hother ▸ hall) hset]
    cases hset' : bracket (codes (sqlite3Utf8Read zPattern).2) with
    | none => exact decides_never (fun _ => rfl) (by decide)
    | some r =>
      obtain ⟨zRest, hread⟩ := bracket_some (c := (sqlite3Utf8Read zString).1) hset'
      apply decides_refused
      rw [Bool.eq_false_iff]
      intro hyes
      rw [hyes] at hread
      exact hmember zRest hread
  | case15 zPattern zString c z hc hall hesc c2 hsame ih =>
    have htext : (sqlite3Utf8Read zString).1 ≠ 0 := by
      intro hzero
      have hc2 : c2 = 0 := hzero
      simp [hc2, sameChar_zero hc] at hsame
    rw [codes_read hc, tokens_char hall hesc, codes_read htext]
    apply Decides.one _ ih
    simp only [Bool.or_eq_true, Bool.and_eq_true] at hsame ⊢
    exact hsame.imp_right And.left
  | case16 zPattern zString c hc hall hesc c2 hsame =>
    rw [codes_read hc, tokens_char hall hesc]
    by_cases htext : (sqlite3Utf8Read zString).1 = 0
    · rw [codes_end htext]
      exact decides_short
    · rw [codes_read htext]
      apply decides_refused
      have hc2 : (c2 != 0) = true := bne_iff_ne.mpr htext
      rw [Bool.not_eq_true, hc2, Bool.and_true] at hsame
      exact hsame

example : patternCompare globInfo '['.toNat (utf8 "*[^b-d]?".toList) (utf8 "abé".toList) =
    .noWildcardMatch := by decide +kernel

end Main

end Gloora
