import Gloora.Lib.Words
import Gloora.Play

/-!
# Stored images

Under which names `save_image` stores the files of a run of uploads. The name is checked as it
was sent and stored as `secure_filename` rewrites it, behind the second of the upload.
-/

namespace Gloora
set_option autoImplicit false

open PyText Words Runs

/-- `filename.rsplit(".", 1)[0]` -/
def stem (filename : Text) : Text :=
  ((filename.reverse.dropWhile fun c => c != '.').drop 1).reverse

section Names
variable {front ext name : Text}

theorem dotted_reverse (hext : '.' ∉ ext) :
    ((front ++ '.' :: ext).reverse.takeWhile fun c => c != '.') = ext.reverse ∧
      ((front ++ '.' :: ext).reverse.dropWhile fun c => c != '.') = '.' :: front.reverse := by
  have hsolid : ∀ c ∈ ext.reverse, (c != '.') = true := by
    intro c hc
    exact bne_iff_ne.mpr fun h => hext (h ▸ List.mem_reverse.mp hc)
  have hreverse : (front ++ '.' :: ext).reverse = ext.reverse ++ '.' :: front.reverse := by simp
  rw [hreverse]
  constructor
  · rw [List.takeWhile_append_of_pos hsolid]
    simp
  · rw [List.dropWhile_append_of_pos hsolid]
    simp

theorem stem_dotted (hext : '.' ∉ ext) : stem (front ++ '.' :: ext) = front := by
  rw [stem, (dotted_reverse hext).2]
  simp

theorem allowedFile_dotted (hext : '.' ∉ ext) :
    allowedFile (front ++ '.' :: ext) = allowedExt.contains (asciiLower ext) := by
  rw [allowedFile, (dotted_reverse hext).1]
  simp

theorem exists_dotted (h : '.' ∈ name) : ∃ front ext, name = front ++ '.' :: ext ∧ '.' ∉ ext := by
  obtain ⟨back, front, hreverse, hback⟩ := List.eq_append_cons_of_mem (List.mem_reverse.mpr h)
  refine ⟨front.reverse, back.reverse, ?_, fun hdot => hback (List.mem_reverse.mp hdot)⟩
  rw [← List.reverse_reverse name, hreverse]
  simp

theorem isAlpha_of_toLower {c : Char} (h : c.toLower.isAlpha = true) : c.isAlpha = true := by
  by_cases hrange : c.val ≥ 'A'.val ∧ c.val ≤ 'Z'.val
  · have hupper : c.isUpper = true := decide_eq_true hrange
    exact Bool.or_eq_true_iff.mpr (.inl hupper)
  · rwa [toLower_eq_self hrange] at h

theorem allowedExt_letters :
    (allowedExt.all fun ext => !ext.isEmpty && ext.all Char.isAlpha) = true := by decide

/-- An accepted name ends in an extension of ASCII letters. -/
theorem dotted_of_allowedFile (h : allowedFile name = true) :
    ∃ front ext, name = front ++ '.' :: ext ∧ '.' ∉ ext ∧ ext ≠ [] ∧
      (∀ c ∈ ext, c.isAlpha = true) ∧ allowedExt.contains (asciiLower ext) = true := by
  have hdot : '.' ∈ name := by
    unfold allowedFile at h
    simp only [Bool.and_eq_true, List.contains_iff_mem] at h
    exact h.1
  obtain ⟨front, ext, rfl, hext⟩ := exists_dotted hdot
  rw [allowedFile_dotted hext] at h
  have hletters := List.all_eq_true.mp allowedExt_letters _ (List.contains_iff_mem.mp h)
  simp only [Bool.and_eq_true, List.all_eq_true] at hletters
  refine ⟨front, ext, rfl, hext, ?_, ?_, h⟩
  · rintro rfl
    simp [asciiLower] at hletters
  · intro c hc
    exact isAlpha_of_toLower (hletters.2 _ (List.mem_map_of_mem hc))

end Names

/-- NFKD leaves ASCII characters where they are, and takes the texts between them apart. -/
structure SplitsAtAscii (nfkdAscii : Text → Text) : Prop where
  nil : nfkdAscii [] = []
  ascii : ∀ a c b, c.toNat < 128 → nfkdAscii (a ++ c :: b) = nfkdAscii a ++ c :: nfkdAscii b

/-- A character that `secure_filename` always keeps. -/
def isSolid (c : Char) : Bool := c.isAlphanum || c == '-'

/-- The characters of a name that `secure_filename` keeps where they are not at an edge. -/
def isKept (c : Char) : Bool := c.isAlphanum || c == '_' || c == '.' || c == '-'

section Rewriting
variable {P : Platform} {front ext name K : Text} {c : Char}

def blankOut (P : Platform) (c : Char) : Char :=
  if c = '/' ∨ (P.windows ∧ c = '\\') then ' ' else c

def withoutSeparators (P : Platform) (name : Text) : Text := (P.nfkdAscii name).map (blankOut P)

def keptPart (P : Platform) (name : Text) : Text :=
  (['_'].intercalate (splitSpace (withoutSeparators P name))).filter isKept

def trimEdges (s : Text) : Text := ((s.dropWhile isEdge).reverse.dropWhile isEdge).reverse

theorem secureFilename_cases (P : Platform) (name : Text) :
    secureFilename P name = trimEdges (keptPart P name) ∨
      secureFilename P name = '_' :: trimEdges (keptPart P name) := by
  unfold secureFilename
  simp only
  split
  · exact .inr rfl
  · exact .inl rfl

theorem isKept_of_isSolid (h : isSolid c = true) : isKept c = true := by
  unfold isSolid at h
  unfold isKept
  simp only [Bool.or_eq_true] at h ⊢
  rcases h with h | h
  · exact .inl (.inl (.inl h))
  · exact .inr h

theorem isEdge_iff (h : isKept c = true) : isEdge c = true ↔ isSolid c = false := by
  have hdot : isSolid '.' = false := by decide
  have hline : isSolid '_' = false := by decide
  unfold isKept at h
  simp only [Bool.or_eq_true, beq_iff_eq] at h
  unfold isEdge
  simp only [Bool.or_eq_true, beq_iff_eq]
  rcases h with ((halnum | rfl) | rfl) | rfl
  · have hsolid : isSolid c = true := by rw [isSolid, halnum, Bool.true_or]
    rw [hsolid]
    refine ⟨?_, by simp⟩
    rintro (rfl | rfl)
    · exact absurd hsolid (by decide)
    · exact absurd hsolid (by decide)
  · simp [hline]
  · simp [hdot]
  · decide

theorem isSolid_of_isAlpha (h : c.isAlpha = true) : isSolid c = true := by
  rw [isSolid, Char.isAlphanum, h, Bool.true_or, Bool.true_or]

theorem not_isSpace_of_isSolid (h : isSolid c = true) : isSpace c = false := by
  have hcodes : (spaceCodes.all fun n => !isSolid (Char.ofNat n)) = true := by decide
  by_contra hspace
  rw [Bool.not_eq_false, isSpace, List.contains_iff_mem] at hspace
  have hnot := List.all_eq_true.mp hcodes _ hspace
  rw [Char.ofNat_toNat, h] at hnot
  cases hnot

theorem toNat_lt_of_isAlpha (h : c.isAlpha = true) : c.toNat < 128 := by
  have hcases : c.isUpper = true ∨ c.isLower = true := Bool.or_eq_true_iff.mp h
  rcases hcases with hupper | hlower
  · have hle : c.toNat ≤ 90 := (of_decide_eq_true hupper).2
    omega
  · have hle : c.toNat ≤ 122 := of_decide_eq_true (Bool.and_eq_true_iff.mp hlower).2
    omega

theorem nfkdAscii_letters (hnfkd : SplitsAtAscii P.nfkdAscii) (hext : ∀ c ∈ ext, c.isAlpha = true) :
    P.nfkdAscii ext = ext := by
  induction ext with
  | nil => exact hnfkd.nil
  | cons c ext ih =>
    obtain ⟨hc, hrest⟩ := List.forall_mem_cons.mp hext
    have hsplit := hnfkd.ascii [] c ext (toNat_lt_of_isAlpha hc)
    rw [hnfkd.nil, ih hrest] at hsplit
    exact hsplit

theorem blankOut_solid (h : isSolid c = true) : blankOut P c = c := by
  apply if_neg
  rintro (rfl | ⟨-, rfl⟩)
  · exact absurd h (by decide)
  · exact absurd h (by decide)

theorem isSolid_blankOut (P : Platform) (c : Char) : isSolid (blankOut P c) = isSolid c := by
  by_cases hc : c = '/' ∨ (P.windows ∧ c = '\\')
  · rw [blankOut, if_pos hc]
    rcases hc with rfl | ⟨-, rfl⟩ <;> decide
  · rw [blankOut, if_neg hc]

theorem withoutSeparators_dotted (hnfkd : SplitsAtAscii P.nfkdAscii)
    (hext : ∀ c ∈ ext, c.isAlpha = true) :
    withoutSeparators P (front ++ '.' :: ext) = withoutSeparators P front ++ '.' :: ext := by
  have hletters : ∀ c ∈ ext, blankOut P c = id c :=
    fun c hc => blankOut_solid (isSolid_of_isAlpha (hext c hc))
  have hdot : blankOut P '.' = '.' := by simp [blankOut]
  rw [withoutSeparators, hnfkd.ascii front '.' ext (by decide), nfkdAscii_letters hnfkd hext,
    List.map_append, List.map_cons, hdot, List.map_congr_left hletters, List.map_id]
  rfl

/-- Separators turn into blanks, which are no more solid than they are. -/
theorem filter_withoutSeparators (P : Platform) (name : Text) :
    (withoutSeparators P name).filter isSolid = (P.nfkdAscii name).filter isSolid := by
  have hsolid : isSolid ∘ blankOut P = isSolid := funext (isSolid_blankOut P)
  have hfixed : ∀ c ∈ (P.nfkdAscii name).filter isSolid, blankOut P c = id c :=
    fun c hc => blankOut_solid (List.mem_filter.mp hc).2
  rw [withoutSeparators, List.filter_map, hsolid, List.map_congr_left hfixed, List.map_id]

theorem flatten_splitSpace (s : Text) :
    (splitSpace s).flatten = s.filter fun c => !isSpace c := by
  rw [splitSpace, List.flatten_filter_not_isEmpty, flatten_splitOnP]

theorem keptPart_dotted (hnfkd : SplitsAtAscii P.nfkdAscii) (hext : ∀ c ∈ ext, c.isAlpha = true)
    (front : Text) :
    ∃ K, keptPart P (front ++ '.' :: ext) = K ++ '.' :: ext ∧ (∀ c ∈ K, isKept c = true) ∧
      K.filter isSolid = (P.nfkdAscii front).filter isSolid := by
  have hsolid : ∀ c ∈ ext, isSolid c = true := fun c hc => isSolid_of_isAlpha (hext c hc)
  have hspace : ∀ c ∈ '.' :: ext, isSpace c = false :=
    List.forall_mem_cons.mpr ⟨by decide, fun c hc => not_isSpace_of_isSolid (hsolid c hc)⟩
  have hkept : ∀ c ∈ '.' :: ext, isKept c = true :=
    List.forall_mem_cons.mpr ⟨by decide, fun c hc => isKept_of_isSolid (hsolid c hc)⟩
  obtain ⟨parts, last, hparts⟩ := splitOnP_append hspace (withoutSeparators P front)
  have hwords : splitSpace (withoutSeparators P (front ++ '.' :: ext)) =
      (parts.filter fun w => !w.isEmpty) ++ [last ++ '.' :: ext] := by
    rw [withoutSeparators_dotted hnfkd hext, splitSpace, hparts, List.filter_append]
    simp
  obtain ⟨joined, hjoined⟩ := intercalate_append_last ['_'] last ('.' :: ext)
    (parts.filter fun w => !w.isEmpty)
  refine ⟨joined.filter isKept, ?_, fun c hc => (List.mem_filter.mp hc).2, ?_⟩
  · rw [keptPart, hwords, hjoined, List.filter_append, List.filter_eq_self.mpr hkept]
  · have hline : ∀ c ∈ ['_'], isSolid c = false := by
      intro c hc
      obtain rfl := List.mem_singleton.mp hc
      decide
    have hwhole : (joined ++ '.' :: ext).filter isSolid =
        (withoutSeparators P (front ++ '.' :: ext)).filter isSolid := by
      rw [← hjoined, ← hwords, filter_intercalate hline, flatten_splitSpace, List.filter_filter]
      apply List.filter_congr
      intro c _
      cases hc : isSolid c with
      | false => rfl
      | true => rw [not_isSpace_of_isSolid hc]; rfl
    rw [withoutSeparators_dotted hnfkd hext, List.filter_append, List.filter_append] at hwhole
    rw [List.filter_filter, ← filter_withoutSeparators, ← List.append_cancel_right hwhole]
    apply List.filter_congr
    intro c _
    cases hc : isSolid c with
    | false => rfl
    | true => rw [isKept_of_isSolid hc]; rfl

/-- No edge is cut off behind the extension. -/
theorem rdropWhile_edges (hne : ext ≠ []) (hext : ∀ c ∈ ext, c.isAlpha = true) (s : Text) :
    (s ++ ext).rdropWhile isEdge = s ++ ext := by
  apply rdropWhile_eq_self.mpr
  intro c hc
  rw [List.getLast?_append_of_ne_nil _ hne] at hc
  have hsolid := isSolid_of_isAlpha (hext c (List.mem_of_getLast? hc))
  have hnot := (isEdge_iff (isKept_of_isSolid hsolid)).not.mpr (by simp [hsolid])
  simpa using hnot

theorem trimEdges_solid (hne : ext ≠ []) (hext : ∀ c ∈ ext, c.isAlpha = true)
    (hkept : ∀ c ∈ K, isKept c = true) (hc : c ∈ K) (hsolid : isSolid c = true) :
    ∃ K', trimEdges (K ++ '.' :: ext) = K' ++ '.' :: ext := by
  have hrest : (K.dropWhile isEdge).isEmpty = false := by
    have hnot : ¬ ∀ x ∈ K, isEdge x = true := by
      intro hall
      rw [(isEdge_iff (hkept c hc)).mp (hall c hc)] at hsolid
      cases hsolid
    simpa [List.dropWhile_eq_nil_iff] using hnot
  refine ⟨K.dropWhile isEdge, ?_⟩
  have htrim : trimEdges (K ++ '.' :: ext) =
      ((K ++ '.' :: ext).dropWhile isEdge).rdropWhile isEdge := rfl
  have hlast := rdropWhile_edges hne hext (K.dropWhile isEdge ++ ['.'])
  rw [List.append_assoc] at hlast
  rw [htrim, List.dropWhile_append, hrest]
  exact hlast

theorem trimEdges_edges (hne : ext ≠ []) (hext : ∀ c ∈ ext, c.isAlpha = true)
    (hkept : ∀ c ∈ K, isKept c = true) (hnone : ∀ c ∈ K, isSolid c = false) :
    trimEdges (K ++ '.' :: ext) = ext := by
  have hedges : ∀ c ∈ K ++ ['.'], isEdge c = true := by
    intro c hc
    rcases List.mem_append.mp hc with hK | hdot
    · exact (isEdge_iff (hkept c hK)).mpr (hnone c hK)
    · obtain rfl := List.mem_singleton.mp hdot
      decide
  obtain ⟨first, rest, rfl⟩ := List.exists_cons_of_ne_nil hne
  have hsolid := isSolid_of_isAlpha (hext first (by simp))
  have hfirst : ¬ isEdge first = true :=
    (isEdge_iff (isKept_of_isSolid hsolid)).not.mpr (by simp [hsolid])
  have htrim : trimEdges (K ++ '.' :: first :: rest) =
      (((K ++ ['.']) ++ first :: rest).dropWhile isEdge).rdropWhile isEdge := by
    rw [List.append_assoc]
    rfl
  rw [htrim, List.dropWhile_append_of_pos hedges, List.dropWhile_cons_of_neg hfirst]
  exact rdropWhile_edges hne hext []

/-- Whether the extension survives is decided in front of it. -/
theorem secureFilename_dotted (hnfkd : SplitsAtAscii P.nfkdAscii) (hne : ext ≠ [])
    (hext : ∀ c ∈ ext, c.isAlpha = true) (front : Text) :
    ((∃ c ∈ P.nfkdAscii front, isSolid c = true) →
      ∃ K, secureFilename P (front ++ '.' :: ext) = K ++ '.' :: ext) ∧
    ((¬ ∃ c ∈ P.nfkdAscii front, isSolid c = true) →
      '.' ∉ secureFilename P (front ++ '.' :: ext)) := by
  obtain ⟨K, hK, hkept, hsame⟩ := keptPart_dotted hnfkd hext front
  have hmem : ∀ c, (c ∈ K ∧ isSolid c = true) ↔ (c ∈ P.nfkdAscii front ∧ isSolid c = true) := by
    intro c
    rw [← List.mem_filter, ← List.mem_filter, hsame]
  constructor
  · rintro ⟨c, hc, hsolidc⟩
    obtain ⟨hcK, -⟩ := (hmem c).mpr ⟨hc, hsolidc⟩
    obtain ⟨K', htrim⟩ := trimEdges_solid hne hext hkept hcK hsolidc
    rcases secureFilename_cases P (front ++ '.' :: ext) with heq | heq
    · exact ⟨K', by rw [heq, hK, htrim]⟩
    · exact ⟨'_' :: K', by rw [heq, hK, htrim]; rfl⟩
  · intro hnone
    have hedges : ∀ c ∈ K, isSolid c = false := by
      intro c hc
      by_contra hsolid
      rw [Bool.not_eq_false] at hsolid
      exact hnone ⟨c, (hmem c).mp ⟨hc, hsolid⟩⟩
    have hdot : '.' ∉ ext := fun h => absurd (hext '.' h) (by decide)
    have htrim := trimEdges_edges hne hext hkept hedges
    rcases secureFilename_cases P (front ++ '.' :: ext) with heq | heq
    · rw [heq, hK, htrim]
      exact hdot
    · rw [heq, hK, htrim]
      simpa using hdot

end Rewriting

/-- A file that a form sends. -/
structure Upload where
  env : Env
  filename : Text

/-- `name` is where the upload ends up in the folder. -/
def StoresAs (P : Platform) (u : Upload) (name : Text) : Prop :=
  saveImage P u.env (some u.filename) = some ("uploads/".toList ++ name)

def DirectlyInside (name : Text) : Prop :=
  '/' ∉ name ∧ '\\' ∉ name ∧ name ≠ [] ∧ name ≠ ".".toList ∧ name ≠ "..".toList

/-- Every file that is stored has an allowed name in the folder, and no earlier one had it. -/
def StoresSafely (P : Platform) : List Upload → Prop :=
  Throughout fun earlier u => ∀ name, StoresAs P u name →
    allowedFile name = true ∧ DirectlyInside name ∧ ∀ v ∈ earlier, ¬ StoresAs P v name

/-- `secure_filename` keeps a character in front of the extension. -/
def KeepsStem (P : Platform) (filename : Text) : Prop :=
  ∃ c ∈ P.nfkdAscii (stem filename), isSolid c = true

instance (P : Platform) (filename : Text) : Decidable (KeepsStem P filename) :=
  decidable_of_iff ((P.nfkdAscii (stem filename)).any isSolid = true) List.any_eq_true

section Uploads
variable {P : Platform} {u v : Upload} {name : Text}

def storedName (P : Platform) (u : Upload) : Text :=
  Nat.toDigits 10 u.env.unixTime ++ '_' :: secureFilename P u.filename

theorem storesAs_iff :
    StoresAs P u name ↔ allowedFile u.filename = true ∧ name = storedName P u := by
  unfold StoresAs saveImage
  split
  · rename_i hnone
    cases hnone
  · rename_i hempty
    rw [Option.some.inj hempty]
    simp [allowedFile]
  · rename_i filename _ hsome
    obtain rfl := Option.some.inj hsome
    by_cases hallowed : allowedFile u.filename = true
    · rw [if_pos hallowed, Option.some.injEq, List.append_cancel_left_eq, storedName]
      exact ⟨fun h => ⟨hallowed, h.symm⟩, fun h => h.2.symm⟩
    · rw [if_neg hallowed]
      constructor
      · intro h
        cases h
      · intro h
        exact absurd h.1 hallowed

theorem isKept_of_mem_secureFilename {c : Char} (h : c ∈ secureFilename P u.filename) :
    isKept c = true := by
  have htrimmed : ∀ c ∈ trimEdges (keptPart P u.filename), isKept c = true := by
    intro c hc
    have hfront := (List.dropWhile_suffix isEdge).subset (List.mem_reverse.mp hc)
    have hback := (List.dropWhile_suffix isEdge).subset (List.mem_reverse.mp hfront)
    exact (List.mem_filter.mp hback).2
  rcases secureFilename_cases P u.filename with heq | heq
  · rw [heq] at h
    exact htrimmed c h
  · rw [heq] at h
    rcases List.mem_cons.mp h with rfl | hmem
    · decide
    · exact htrimmed c hmem

theorem mem_storedName {c : Char} (h : c ∈ storedName P u) :
    c.isDigit = true ∨ c = '_' ∨ c ∈ secureFilename P u.filename := by
  rcases List.mem_append.mp h with hdigit | hrest
  · exact .inl (Nat.isDigit_of_mem_toDigits (by decide) (by decide) hdigit)
  · exact .inr (List.mem_cons.mp hrest)

theorem directlyInside_storedName (P : Platform) (u : Upload) :
    DirectlyInside (storedName P u) := by
  have hsafe : ∀ c, c.isDigit = false → c ≠ '_' → isKept c = false → c ∉ storedName P u := by
    intro c hdigit hline hkept hmem
    rcases mem_storedName hmem with htime | heq | hsecure
    · rw [htime] at hdigit
      cases hdigit
    · exact hline heq
    · rw [isKept_of_mem_secureFilename hsecure] at hkept
      cases hkept
  have hline : '_' ∈ storedName P u := by simp [storedName]
  refine ⟨hsafe '/' (by decide) (by decide) (by decide),
    hsafe '\\' (by decide) (by decide) (by decide), ?_, ?_, ?_⟩
  · exact List.ne_nil_of_mem hline
  · intro h
    rw [h] at hline
    exact absurd hline (by decide)
  · intro h
    rw [h] at hline
    exact absurd hline (by decide)

theorem storedName_inj : storedName P u = storedName P v ↔
    u.env.unixTime = v.env.unixTime ∧
      secureFilename P u.filename = secureFilename P v.filename := by
  have hline : ∀ n, '_' ∉ Nat.toDigits 10 n := by
    intro n hmem
    exact absurd (Nat.isDigit_of_mem_toDigits (by decide) (by decide) hmem) (by decide)
  rw [storedName, storedName, append_cons_inj (hline _) (hline _)]
  have hdigits : Nat.toDigits 10 u.env.unixTime = Nat.toDigits 10 v.env.unixTime ↔
      u.env.unixTime = v.env.unixTime := by
    refine ⟨fun h => ?_, congrArg _⟩
    have hread := congrArg (fun cs => Nat.ofDigitChars 10 cs 0) h
    simpa only [Nat.ofDigitChars_ten_toDigits] using hread
  rw [hdigits]

theorem allowedFile_storedName (hnfkd : SplitsAtAscii P.nfkdAscii)
    (hallowed : allowedFile u.filename = true) :
    allowedFile (storedName P u) = true ↔ KeepsStem P u.filename := by
  obtain ⟨front, ext, hname, hdot, hne, hletters, hext⟩ := dotted_of_allowedFile hallowed
  obtain ⟨hkeeps, hloses⟩ := secureFilename_dotted hnfkd hne hletters front
  rw [KeepsStem, hname, stem_dotted hdot]
  rw [← hname] at hkeeps hloses
  by_cases hsolid : ∃ c ∈ P.nfkdAscii front, isSolid c = true
  · obtain ⟨K, hK⟩ := hkeeps hsolid
    have hstored : storedName P u = (Nat.toDigits 10 u.env.unixTime ++ '_' :: K) ++ '.' :: ext := by
      rw [storedName, hK]
      simp
    rw [hstored, allowedFile_dotted hdot]
    exact ⟨fun _ => hsolid, fun _ => hext⟩
  · have hnot : '.' ∉ storedName P u := by
      intro hmem
      rcases mem_storedName hmem with htime | heq | hsecure
      · exact absurd htime (by decide)
      · cases heq
      · exact hloses hsolid hsecure
    have hfalse : allowedFile (storedName P u) = false := by
      unfold allowedFile
      simp [hnot]
    rw [hfalse]
    constructor
    · intro h
      cases h
    · intro h
      exact absurd h hsolid

theorem stores_safely_iff (P : Platform) (hnfkd : SplitsAtAscii P.nfkdAscii)
    (uploads : List Upload) :
    StoresSafely P uploads ↔
      Throughout (fun earlier u => allowedFile u.filename = true →
        KeepsStem P u.filename ∧
        ∀ v ∈ earlier, allowedFile v.filename = true → v.env.unixTime = u.env.unixTime →
          secureFilename P v.filename ≠ secureFilename P u.filename) uploads := by
  apply forall_congr'
  intro earlier
  apply forall_congr'
  intro u
  apply forall_congr'
  intro later
  apply imp_congr_right
  intro _
  constructor
  · intro h hallowed
    obtain ⟨hname, -, hfresh⟩ := h (storedName P u) (storesAs_iff.mpr ⟨hallowed, rfl⟩)
    refine ⟨(allowedFile_storedName hnfkd hallowed).mp hname, ?_⟩
    intro v hv hallowedv htime hsame
    exact hfresh v hv (storesAs_iff.mpr ⟨hallowedv, (storedName_inj.mpr ⟨htime, hsame⟩).symm⟩)
  · intro h name hname
    obtain ⟨hallowed, rfl⟩ := storesAs_iff.mp hname
    obtain ⟨hkeeps, hdiffers⟩ := h hallowed
    refine ⟨(allowedFile_storedName hnfkd hallowed).mpr hkeeps, directlyInside_storedName P u, ?_⟩
    intro v hv hsame
    obtain ⟨hallowedv, heq⟩ := storesAs_iff.mp hsame
    obtain ⟨htime, hsecure⟩ := storedName_inj.mp heq
    exact hdiffers v hv hallowedv htime.symm hsecure.symm

end Uploads

/-- NFKD takes none of the characters apart that are sent here. -/
def asciiOnly : Platform :=
  { plain with nfkdAscii := fun s => s.filter fun c => decide (c.toNat < 128) }

theorem splitsAtAscii_asciiOnly : SplitsAtAscii asciiOnly.nfkdAscii where
  nil := rfl
  ascii a c b hc := by simp [asciiOnly, hc]

def sent (second : Nat) (filename : String) : Upload where
  env := { calmly 0 "order" with unixTime := second }
  filename := filename.toList

theorem stores_safely_iff_logos :
    StoresSafely asciiOnly [sent 1700000000 "logo.png", sent 1700000000 "my shop.jpeg",
      sent 1700000001 "logo.png"] := by
  apply (stores_safely_iff asciiOnly splitsAtAscii_asciiOnly _).mpr
  decide +kernel

/-- Nothing is left of a name in Chinese but its extension. -/
theorem chinese_name_fails : ¬ ∀ (P : Platform) (uploads : List Upload),
    SplitsAtAscii P.nfkdAscii → StoresSafely P uploads := by
  intro h
  have hsafe := h asciiOnly [sent 1700000000 "照片.png"] splitsAtAscii_asciiOnly [] _ [] rfl
  have hstored : StoresAs asciiOnly (sent 1700000000 "照片.png") "1700000000_png".toList := by
    unfold StoresAs
    decide +kernel
  have hallowed := (hsafe _ hstored).1
  exact absurd hallowed (by decide)

end Gloora
