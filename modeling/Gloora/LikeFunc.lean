import Gloora.PatternCompare
import Gloora.Search

/-!
# The search as SQLite evaluates it

`likeFunc` is the operator LIKE, `lowerFunc` the function LOWER; both see bytes. On the texts
that Python hands over they compute what `like` and `asciiLower` say, so that the rows
show_salons lists are those of the model.
-/

namespace Gloora
set_option autoImplicit false

open PyText Globs Keyed

/-- The SQL functions that `likeFunc` computes, with the argument of ESCAPE where there is one;
PRAGMA case_sensitive_like chooses between the two kinds of LIKE. -/
inductive PatternOperator where
  | glob
  | like (caseSensitive : Bool) (zEsc : Option (List UInt8))

def likeInfo (caseSensitive : Bool) : CompareInfo :=
  if caseSensitive then likeInfoAlt else likeInfoNorm

def PatternOperator.info : PatternOperator → CompareInfo
  | glob => globInfo
  | like caseSensitive _ => likeInfo caseSensitive

def PatternOperator.zEsc : PatternOperator → Option (List UInt8)
  | glob => none
  | like _ zEsc => zEsc

/-- `sqlite3Utf8CharLen(z, -1)` -/
def sqlite3Utf8CharLen (z : List UInt8) : Nat :=
  if _h : z.headD 0 = 0 then 0 else sqlite3Utf8CharLen (skipUtf8 z) + 1
termination_by z.length
decreasing_by exact length_skip _h

/-- The escape character and what it leaves of the wildcards. -/
def escaping (info : CompareInfo) (zEsc : List UInt8) : CompareInfo × Nat :=
  let escape := (sqlite3Utf8Read zEsc).1
  ({ info with
      matchAll := if escape = info.matchAll then 0 else info.matchAll
      matchOne := if escape = info.matchOne then 0 else info.matchOne }, escape)

/-- `likeFunc` on a pattern and a text that are not NULL; `limit` is
SQLITE_LIMIT_LIKE_PATTERN_LENGTH. -/
def likeFunc (limit : Nat) (op : PatternOperator) (zB zA : List UInt8) : Except Text Bool :=
  if limit < zB.length then .error "LIKE or GLOB pattern too complex".toList
  else
    match op.zEsc with
    | none => .ok (patternCompare op.info op.info.matchSet zB zA == .isMatch)
    | some zEsc =>
      if sqlite3Utf8CharLen zEsc ≠ 1 then
        .error "ESCAPE expression must be a single character".toList
      else
        let (info, escape) := escaping op.info zEsc
        .ok (patternCompare info escape zB zA == .isMatch)

section Operators
variable {op : PatternOperator} {limit : Nat} {zB zA zEsc : List UInt8} {found : Bool}

theorem charLen_eq (z : List UInt8) : sqlite3Utf8CharLen z = (codes z).length := by
  fun_induction sqlite3Utf8CharLen z with
  | case1 z hend =>
    rw [codes_eq_nil.mpr hend]
    rfl
  | case2 z hend ih =>
    have hread : (sqlite3Utf8Read z).1 ≠ 0 := fun h => hend (read_eq_zero.mp h)
    rw [ih, codes_read hread, read_rest, List.length_cons]

/-- The tokens of a pattern under an operator. -/
def PatternOperator.tokens (op : PatternOperator) (p : List Nat) : List (Token Nat) :=
  match op.zEsc with
  | none => Gloora.tokens op.info op.info.matchSet p
  | some zEsc => Gloora.tokens (escaping op.info zEsc).1 (escaping op.info zEsc).2 p

theorem fits_plain : op.info.Fits op.info.matchSet := by
  cases op with
  | glob => exact ⟨by decide, by decide⟩
  | like caseSensitive zEsc =>
    have hfits : (likeInfo caseSensitive).Fits (likeInfo caseSensitive).matchSet := by
      cases caseSensitive <;> exact ⟨by decide, by decide⟩
    exact hfits

/-- The escape character takes the place of a wildcard. -/
theorem fits_escaping (h : op.zEsc = some zEsc) :
    (escaping op.info zEsc).1.Fits (escaping op.info zEsc).2 := by
  cases op with
  | glob => cases h
  | like caseSensitive zEsc' =>
    have hinfo : (likeInfo caseSensitive).matchOne ≠ (likeInfo caseSensitive).matchAll ∧
        (likeInfo caseSensitive).matchSet = 0 := by
      cases caseSensitive <;> decide
    constructor
    · intro hone
      simp only [escaping] at hone ⊢
      by_cases hescape : (sqlite3Utf8Read zEsc).1 =
          (PatternOperator.like caseSensitive zEsc').info.matchOne
      · simp [hescape] at hone
      · rw [if_neg hescape] at hone ⊢
        refine ⟨?_, fun h => hescape h.symm⟩
        split
        · exact hone
        · exact hinfo.1
    · exact fun hset => absurd hinfo.2 hset

/-- `likeFunc` answers unless the pattern is too long or the escape is not one character. -/
def PatternOperator.Allows (op : PatternOperator) (limit : Nat) (zB : List UInt8) : Prop :=
  zB.length ≤ limit ∧ ∀ zEsc, op.zEsc = some zEsc → (codes zEsc).length = 1

theorem likeFunc_ok (zA : List UInt8) (h : op.Allows limit zB) :
    ∃ v, likeFunc limit op zB zA = .ok (v == .isMatch) ∧
      Decides (op.tokens (codes zB)) (codes zA) v := by
  unfold likeFunc PatternOperator.tokens
  rw [if_neg (Nat.not_lt.mpr h.1)]
  cases hesc : op.zEsc with
  | none => exact ⟨_, rfl, patternCompare_decides fits_plain⟩
  | some zEsc =>
    simp only [charLen_eq, h.2 zEsc hesc, ne_eq, not_true_eq_false, if_false]
    exact ⟨_, rfl, patternCompare_decides (fits_escaping hesc)⟩

theorem likeFunc_error (zA : List UInt8) (h : ¬ op.Allows limit zB) :
    ∃ e, likeFunc limit op zB zA = .error e := by
  unfold likeFunc
  by_cases hlimit : limit < zB.length
  · exact ⟨_, if_pos hlimit⟩
  · rw [if_neg hlimit]
    cases hesc : op.zEsc with
    | none => exact absurd ⟨Nat.le_of_not_lt hlimit, by simp [hesc]⟩ h
    | some zEsc =>
      have hlength : (codes zEsc).length ≠ 1 := by
        intro hone
        apply h
        refine ⟨Nat.le_of_not_lt hlimit, ?_⟩
        intro z hz
        rwa [← Option.some.inj (hesc.symm.trans hz)]
      exact ⟨_, if_pos ((charLen_eq zEsc).symm ▸ hlength)⟩

/-- SQLite finds a match exactly where the pattern, read as tokens, matches the text. -/
theorem likeFunc_decides : likeFunc limit op zB zA = .ok found ↔
    op.Allows limit zB ∧ (found = true ↔ Matches (op.tokens (codes zB)) (codes zA)) := by
  by_cases hallows : op.Allows limit zB
  · obtain ⟨v, hok, hdecides⟩ := likeFunc_ok zA hallows
    rw [hok, Except.ok.injEq, Bool.eq_iff_iff, beq_iff_eq, hdecides.isMatch_iff]
    exact ⟨fun h => ⟨hallows, h.symm⟩, fun h => h.2.symm⟩
  · obtain ⟨e, herror⟩ := likeFunc_error zA hallows
    rw [herror]
    exact ⟨nofun, fun h => absurd h.1 hallows⟩

end Operators

section Texts
variable {p s : Text}

theorem toNat_toLower (c : Char) :
    c.toLower.toNat = if 65 ≤ c.toNat ∧ c.toNat ≤ 90 then c.toNat + 32 else c.toNat := by
  by_cases hrange : 65 ≤ c.toNat ∧ c.toNat ≤ 90
  · rw [if_pos hrange]
    have hall : ∀ n, 65 ≤ n → n ≤ 90 → (Char.ofNat n).toLower.toNat = n + 32 := by
      intro n hlow hhigh
      interval_cases n <;> decide
    have hc := hall c.toNat hrange.1 hrange.2
    rwa [Char.ofNat_toNat] at hc
  · rw [if_neg hrange, toLower_eq_self hrange]

theorem sameChar_like (c d : Char) :
    sameChar likeInfoNorm (Like.readChar c).toNat (Like.readChar d).toNat =
      (Like.likeKey c == Like.likeKey d) := by
  rw [Bool.eq_iff_iff, beq_iff_eq, ← Char.toNat_inj, Like.likeKey, Like.likeKey, toNat_toLower,
    toNat_toLower]
  simp only [sameChar, likeInfoNorm, sqlite3Tolower, Bool.or_eq_true, Bool.and_eq_true, beq_iff_eq,
    decide_eq_true_eq, true_and]
  split_ifs <;> omega

/-- A wildcard is read as itself, and nothing else is read as a wildcard. -/
theorem readChar_eq_iff {w : Char} (hw : w.toNat < 0x80) (c : Char) :
    (Like.readChar c).toNat = w.toNat ↔ c = w := by
  unfold Like.readChar
  split
  · have hreplaced : ('\ufffd').toNat = 0xfffd := by decide
    rw [hreplaced]
    constructor
    · intro h
      omega
    · intro h
      subst h
      omega
  · rw [Char.toNat_inj]

/-- `likeMatch` reads a pattern as SQLite does. -/
theorem matches_like (hp : '\x00' ∉ p) :
    Matches (tokens likeInfoNorm 0 (p.map fun c => (Like.readChar c).toNat))
      (s.map fun c => (Like.readChar c).toNat) ↔ Like.likeMatch p s = true := by
  induction p generalizing s with
  | nil =>
    rw [List.map_nil, tokens.eq_def, Like.likeMatch, List.isEmpty_iff]
    exact matches_nil.trans List.map_eq_nil_iff
  | cons c p ih =>
    have hc : '\x00' ≠ c := List.ne_of_not_mem_cons hp
    have ih := fun s => ih (s := s) (List.not_mem_of_not_mem_cons hp)
    rw [List.map_cons]
    by_cases hpercent : c = '%'
    · have hall : (Like.readChar c).toNat = likeInfoNorm.matchAll :=
        (readChar_eq_iff (by decide) c).mpr hpercent
      rw [hall, tokens_all, matches_any, hpercent, Like.likeMatch_percent]
      constructor
      · intro h
        obtain ⟨t, ht, hmatch⟩ := h
        obtain ⟨rest, hrest, rfl⟩ := List.suffix_map_iff.mp ht
        exact ⟨rest, hrest, (ih rest).mp hmatch⟩
      · intro h
        obtain ⟨rest, hrest, hmatch⟩ := h
        exact ⟨_, hrest.map _, (ih rest).mpr hmatch⟩
    · have hall : (Like.readChar c).toNat ≠ likeInfoNorm.matchAll :=
        fun h => hpercent ((readChar_eq_iff (by decide) c).mp h)
      have hother : (Like.readChar c).toNat ≠ 0 :=
        fun h => hc ((readChar_eq_iff (w := '\x00') (by decide) c).mp h).symm
      have hline : ((Like.readChar c).toNat == likeInfoNorm.matchOne) = (c == '_') := by
        rw [Bool.eq_iff_iff, beq_iff_eq, beq_iff_eq]
        exact readChar_eq_iff (by decide) c
      rw [tokens_char hall hother, matches_one, Like.likeMatch_char hpercent]
      constructor
      · intro h
        obtain ⟨d, t, hs, haccepts, hmatch⟩ := h
        obtain ⟨e, rest, rfl, rfl, rfl⟩ := List.map_eq_cons_iff.mp hs
        rw [sameChar_like, hline, Bool.or_comm, Bool.or_eq_true, beq_iff_eq, beq_iff_eq]
          at haccepts
        exact ⟨e, rest, rfl, haccepts, (ih rest).mp hmatch⟩
      · intro h
        obtain ⟨e, rest, rfl, haccepts, hmatch⟩ := h
        refine ⟨_, _, List.map_cons, ?_, (ih rest).mpr hmatch⟩
        rw [sameChar_like, hline, Bool.or_comm, Bool.or_eq_true, beq_iff_eq, beq_iff_eq]
        exact haccepts

end Texts

/-- `lowerFunc`, byte by byte -/
def lowerFunc (z : List UInt8) : List UInt8 := z.map fun b => .ofNat (sqlite3Tolower b.toNat)

/-- The condition of the query on one row: a NULL is like nothing, an error ends the query. -/
def whereSalon (limit : Nat) (zB : List UInt8) (r : Salon) : Except Text Bool := do
  let inName ← likeFunc limit (.like false none) zB (lowerFunc (utf8 r.salonName))
  match inName, r.address with
  | true, _ => return true
  | false, none => return false
  | false, some a => likeFunc limit (.like false none) zB (lowerFunc (utf8 a))

/-- The rows for which the condition holds, in their order. -/
def selectWhere (cond : Salon → Except Text Bool) :
    List (Nat × Salon) → Except Text (List (Nat × Salon))
  | [] => .ok []
  | row :: rows => do
    let holds ← cond row.2
    let rest ← selectWhere cond rows
    return if holds then row :: rest else rest

section Query
variable {limit : Nat} {pattern s : Text} {rows : List (Nat × Salon)}
  {salons : Table Salon}

/-- Every error of SQLite is one exception of Python's. -/
def operationalError {α : Type} : Except Text α → Except Text α
  | .ok a => .ok a
  | .error _ => .error "OperationalError".toList

theorem utf8EncodeChar_ascii {c : Char} (hc : c.toNat ≤ 0x7f) :
    String.utf8EncodeChar c = [.ofNat c.toNat] := if_pos hc

theorem lowerFunc_char (c : Char) :
    lowerFunc (String.utf8EncodeChar c) = String.utf8EncodeChar c.toLower := by
  by_cases hc : c.toNat ≤ 0x7f
  · have hlower : c.toLower.toNat = sqlite3Tolower c.toNat ∧ c.toLower.toNat ≤ 0x7f := by
      rw [toNat_toLower]
      unfold sqlite3Tolower
      split_ifs <;> omega
    rw [utf8EncodeChar_ascii hc, utf8EncodeChar_ascii hlower.2, hlower.1, lowerFunc,
      List.map_singleton, (ascii_ofNat hc).2]
  · have hself : c.toLower = c := by
      rw [← Char.toNat_inj, toNat_toLower, if_neg]
      omega
    rw [hself]
    refine (List.map_congr_left ?_).trans (List.map_id _)
    intro b hb
    have hrange := mem_utf8EncodeChar (Nat.lt_of_not_le hc) hb
    have hbyte := b.toNat_lt
    have hlower : sqlite3Tolower b.toNat = b.toNat := by
      unfold sqlite3Tolower
      split_ifs <;> omega
    rw [hlower, UInt8.ofNat_toNat]
    rfl

theorem lowerFunc_utf8 (s : Text) : lowerFunc (utf8 s) = utf8 (asciiLower s) := by
  induction s with
  | nil => rfl
  | cons c s ih =>
    rw [asciiLower, List.map_cons, utf8, List.flatMap_cons, lowerFunc, List.map_append,
      ← lowerFunc, lowerFunc_char, ← utf8, ← lowerFunc, ih]
    rfl

theorem length_utf8 (s : Text) : (utf8 s).length = utf8Length s := by
  rw [utf8, List.length_flatMap, utf8Length]
  congr 1
  apply List.map_congr_left
  intro c _
  exact String.length_utf8EncodeChar c

theorem likeFunc_texts (h : utf8Length pattern ≤ limit) :
    likeFunc limit (.like false none) (utf8 pattern) (utf8 s) = .ok (Like.like pattern s) := by
  rw [likeFunc_decides, Like.like, ← matches_like, codes_utf8, codes_utf8]
  · refine ⟨⟨length_utf8 pattern ▸ h, ?_⟩, Iff.rfl⟩
    intro zEsc hesc
    cases hesc
  · intro hnul
    have hno := List.mem_takeWhile_imp hnul
    simp at hno

theorem whereSalon_eq (h : utf8Length pattern ≤ limit) (r : Salon) :
    whereSalon limit (utf8 pattern) r = .ok (likeSalon pattern r) := by
  simp only [whereSalon, lowerFunc_utf8, likeFunc_texts h, likeSalon]
  cases Like.like pattern (asciiLower r.salonName) with
  | true => rfl
  | false =>
    cases r.address with
    | none => rfl
    | some a => rfl

theorem selectWhere_ok {cond : Salon → Except Text Bool} {holds : Salon → Bool}
    (h : ∀ r, cond r = .ok (holds r)) (rows : List (Nat × Salon)) :
    selectWhere cond rows = .ok (rows.filter fun row => holds row.2) := by
  induction rows with
  | nil => rfl
  | cons row rows ih =>
    rw [selectWhere, h, ih, List.filter_cons]
    rfl

theorem whereSalon_long (h : limit < utf8Length pattern) (r : Salon) :
    ∃ e, whereSalon limit (utf8 pattern) r = .error e := by
  have hlong : ¬ (PatternOperator.like false none).Allows limit (utf8 pattern) :=
    fun hallows => absurd (length_utf8 pattern ▸ hallows.1) (Nat.not_le.mpr h)
  obtain ⟨e, he⟩ := likeFunc_error (lowerFunc (utf8 r.salonName)) hlong
  refine ⟨e, ?_⟩
  rw [whereSalon, he]
  rfl

/-- The query of show_salons, evaluated by SQLite's own code, is the one of the model. -/
theorem search_computed (salons : Table Salon) (pattern : Text) :
    operationalError (selectWhere (whereSalon 50000 (utf8 pattern)) salons.rows) =
      selectLike salons pattern := by
  unfold selectLike
  by_cases hlong : 50000 < utf8Length pattern
  · cases hrows : salons.rows with
    | nil => simp [selectWhere, operationalError]
    | cons row rows =>
      obtain ⟨e, he⟩ := whereSalon_long hlong row.2
      rw [if_pos ⟨hlong, nofun⟩, selectWhere, he]
      rfl
  · rw [if_neg (fun h => hlong h.1),
      selectWhere_ok fun r => whereSalon_eq (Nat.le_of_not_lt hlong) r]
    rfl

end Query

end Gloora
