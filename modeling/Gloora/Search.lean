import Gloora.Lib.LetterCase
import Gloora.Lib.Like
import Gloora.Schema

/-!
# Searching for salons

The rows that show_salons lists. The text of the search is put between two `%` as it is, in
the lower case of Python; the columns are in SQLite's, which knows no letters but those of ASCII.
-/

namespace Gloora
set_option autoImplicit false

open PyText LetterCase Like Keyed

/-- The length in bytes of a text in UTF-8. -/
def utf8Length (s : Text) : Nat := (s.map Char.utf8Size).sum

/-- `f"%{search}%"` -/
def searchPattern (search : Text) : Text := '%' :: (search ++ ['%'])

/-- `LOWER(salon_name) LIKE ? OR LOWER(address) LIKE ?`, where NULL is like nothing. -/
def likeSalon (pattern : Text) (r : Salon) : Bool :=
  like pattern (asciiLower r.salonName) || r.address.any fun a => like pattern (asciiLower a)

/-- The query with the condition; LIKE refuses a pattern of more than 50000 bytes, if there is
a row to compare. -/
def selectLike (salons : Table Salon) (pattern : Text) : Except Text (List (Nat × Salon)) :=
  if 50000 < utf8Length pattern ∧ salons.rows ≠ [] then .error "OperationalError".toList
  else .ok (salons.rows.filter fun r => likeSalon pattern r.2)

/-- The rows that show_salons lists. -/
def showSalons (finalSigma : Text → Text → Bool) (salons : Table Salon) (search : Option Text) :
    Except Text (List (Nat × Salon)) :=
  let search := lower finalSigma (strip (search.getD []))
  if search.isEmpty then .ok salons.rows else selectLike salons (searchPattern search)

/-- `t` is a part of `s`, up to the case of the letters. -/
def Occurs (t s : Text) : Prop := ∃ u, u <:+: s ∧ u.map fold = t.map fold

/-- `t` occurs in the name or the address. -/
def Salon.Mentions (r : Salon) (t : Text) : Prop :=
  Occurs t r.salonName ∨ ∃ a ∈ r.address, Occurs t a

/-- A search lists the salons that mention what is searched for, and no others. -/
def FindsExactly (finalSigma : Text → Text → Bool) (salons : Table Salon) (search : Text) : Prop :=
  ∃ listed, showSalons finalSigma salons (some search) = .ok listed ∧
    ∀ row, row ∈ listed ↔ row ∈ salons.rows ∧ row.2.Mentions (strip search)

def storedTexts (salons : Table Salon) : List Text :=
  salons.rows.flatMap fun r => r.2.salonName :: r.2.address.toList

def NulFree (salons : Table Salon) : Prop := ∀ s ∈ storedTexts salons, '\x00' ∉ s

/-- SQLite finds nothing else than what is asked for: there are no wildcards, nothing is cut
off, and on the characters at hand the two notions of case agree. -/
structure Clear (finalSigma : Text → Text → Bool) (salons : Table Salon) (t : Text) : Prop where
  plain : Plain t
  noNul : '\x00' ∉ t
  noDotted : 'İ' ∉ t
  short : salons.rows ≠ [] → utf8Length (searchPattern (lower finalSigma t)) ≤ 50000
  stored : NulFree salons
  sameCase : ∀ c ∈ lower finalSigma t, ∀ s ∈ storedTexts salons, ∀ d ∈ s,
    (likeKey c = likeKey d ↔ fold c = fold d)

section Search
variable {finalSigma : Text → Text → Bool} {salons : Table Salon} {search t s a b : Text}
  {c d : Char}

theorem map_eq_map_iff {f g : Char → Char}
    (h : ∀ c ∈ t, ∀ d ∈ s, (f c = f d ↔ g c = g d)) :
    s.map f = t.map f ↔ s.map g = t.map g := by
  induction t generalizing s with
  | nil => simp
  | cons c t ih =>
    cases s with
    | nil => simp
    | cons d s =>
      have hrest : s.map f = t.map f ↔ s.map g = t.map g :=
        ih fun c hc d hd => h c (List.mem_cons_of_mem _ hc) d (List.mem_cons_of_mem _ hd)
      have hfirst : f d = f c ↔ g d = g c := by
        rw [eq_comm, h c (by simp) d (by simp), eq_comm]
      rw [List.map_cons, List.map_cons, List.map_cons, List.map_cons, List.cons.injEq,
        List.cons.injEq, hfirst, hrest]

theorem mem_lower_mark {w : Char} (hw : w = '%' ∨ w = '_' ∨ w = '\x00') :
    w ∈ lower finalSigma t ↔ w ∈ t := by
  rcases hw with rfl | rfl | rfl <;> exact mem_lower (by decide) (by decide +kernel)

theorem plain_lower (h : Plain t) : Plain (lower finalSigma t) :=
  ⟨(mem_lower_mark (by simp)).not.mpr h.1, (mem_lower_mark (by simp)).not.mpr h.2⟩

theorem like_iff_occurs (hplain : Plain t) (hnul : '\x00' ∉ t) (hdotted : 'İ' ∉ t)
    (hs : '\x00' ∉ s)
    (hcase : ∀ c ∈ lower finalSigma t, ∀ d ∈ s, (likeKey c = likeKey d ↔ fold c = fold d)) :
    like (searchPattern (lower finalSigma t)) (asciiLower s) = true ↔ Occurs t s := by
  rw [searchPattern, like_lower_contains (plain_lower hplain)
    ((mem_lower_mark (by simp)).not.mpr hnul) hs, Occurs, ← map_fold_lower hdotted]
  apply exists_congr
  intro u
  apply and_congr_right
  intro hu
  exact map_eq_map_iff fun c hc d hd => hcase c hc d (hu.subset hd)

theorem mem_storedTexts : s ∈ storedTexts salons ↔
    ∃ row ∈ salons.rows, s = row.2.salonName ∨ s ∈ row.2.address := by
  simp [storedTexts, List.mem_flatMap]

theorem showSalons_eq (hsearch : strip search ≠ []) :
    showSalons finalSigma salons (some search) =
      selectLike salons (searchPattern (lower finalSigma (strip search))) := by
  have hgiven : (lower finalSigma (strip search)).isEmpty = false := by
    simpa [lower_eq_nil] using hsearch
  simp only [showSalons, Option.getD_some, hgiven]
  rfl

theorem length_listed_le {search : Option Text} {listed : List (Nat × Salon)}
    (h : showSalons finalSigma salons search = .ok listed) : listed.length ≤ salons.rows.length := by
  simp only [showSalons, selectLike] at h
  split_ifs at h
  · exact Nat.le_of_eq (congrArg List.length (Except.ok.inj h).symm)
  · obtain rfl := Except.ok.inj h
    exact List.length_filter_le _ _

theorem Clear.findsExactly (hsearch : strip search ≠ [])
    (h : Clear finalSigma salons (strip search)) : FindsExactly finalSigma salons search := by
  have hshort : ¬ (50000 < utf8Length (searchPattern (lower finalSigma (strip search))) ∧
      salons.rows ≠ []) := fun hlong => absurd (h.short hlong.2) (Nat.not_le.mpr hlong.1)
  refine ⟨_, by rw [showSalons_eq hsearch, selectLike, if_neg hshort], ?_⟩
  intro row
  rw [List.mem_filter]
  apply and_congr_right
  intro hrow
  have hlike : ∀ s, s = row.2.salonName ∨ s ∈ row.2.address →
      (like (searchPattern (lower finalSigma (strip search))) (asciiLower s) = true ↔
        Occurs (strip search) s) := by
    intro s hs
    have hstored : s ∈ storedTexts salons := mem_storedTexts.mpr ⟨row, hrow, hs⟩
    exact like_iff_occurs h.plain h.noNul h.noDotted (h.stored s hstored)
      fun c hc d hd => h.sameCase c hc s hstored d hd
  rw [likeSalon, Bool.or_eq_true, hlike _ (.inl rfl), Salon.Mentions, Option.any_eq_true]
  apply or_congr_right
  apply exists_congr
  intro a
  apply and_congr_right
  intro ha
  exact hlike a (.inr ha)

end Search

/-- A row with this name and no address. -/
def namedSalon (name : Text) : Salon where
  salonName := name
  address := none
  city := []
  state := []
  lat := none
  lng := none
  contact := []
  status := []
  ownerUsername := []
  ownerId := none
  email := []
  passKey := []
  ratingTotal := 0
  ratingCount := 0
  image := none
  workerCount := some 1

def oneSalon (name : Text) : Table Salon := Table.empty.insert (namedSalon name)

section OneSalon
variable {finalSigma : Text → Text → Bool} {search t name a b : Text} {c d w : Char}

theorem oneSalon_nulFree (h : '\x00' ∉ name) : NulFree (oneSalon name) := by
  intro s hs
  obtain ⟨row, hrow, hs⟩ := mem_storedTexts.mp hs
  obtain rfl : row = (1, namedSalon name) := by
    simpa [oneSalon, Table.insert, Table.empty] using hrow
  rcases hs with rfl | hs
  · exact h
  · cases hs

/-- The only row is listed when the name is like the pattern. -/
theorem FindsExactly.name_iff (hsearch : strip search ≠ [])
    (h : FindsExactly finalSigma (oneSalon name) search) :
    utf8Length (searchPattern (lower finalSigma (strip search))) ≤ 50000 ∧
      (like (searchPattern (lower finalSigma (strip search))) (asciiLower name) = true ↔
        Occurs (strip search) name) := by
  obtain ⟨listed, hlisted, hrows⟩ := h
  rw [showSalons_eq hsearch, selectLike] at hlisted
  split at hlisted
  · cases hlisted
  rename_i hshort
  have hrow : (1, namedSalon name) ∈ (oneSalon name).rows := by
    simp [oneSalon, Table.insert, Table.empty]
  obtain rfl := Except.ok.inj hlisted
  constructor
  · by_contra hlong
    exact hshort ⟨by omega, List.ne_nil_of_mem hrow⟩
  · have hiff := hrows (1, namedSalon name)
    simp only [List.mem_filter, hrow, true_and] at hiff
    simpa [likeSalon, Salon.Mentions, namedSalon] using hiff

/-- A name without a character that folds to nothing else does not mention it. -/
theorem not_occurs (hw : w.toNat < 0x61) (hself : fold w = w) (ht : w ∈ t) (hname : w ∉ name) :
    ¬ Occurs t name := by
  rintro ⟨u, hu, hfold⟩
  have hmem : w ∈ u.map fold := by
    rw [hfold]
    exact List.mem_map.mpr ⟨w, ht, hself⟩
  obtain ⟨x, hx, hxw⟩ := List.mem_map.mp hmem
  rw [fold_eq_self hw hxw] at hx
  exact hname (hu.subset hx)

theorem likeMatch_asciiLower (p : Text) {q s : Text} (hq : likeMatch q s = true) :
    likeMatch (p ++ q) (asciiLower p ++ s) = true :=
  likeMatch_map (fun c _ => .inr (.inr (likeKey_toLower c).symm)) hq

/-- A search is cut off at a NUL, and lists what ends in the part in front of it. -/
theorem like_cut (finalSigma : Text → Text → Bool) (h : '\x00' ∈ t) :
    ∃ name, '\x00' ∉ name ∧
      like (searchPattern (lower finalSigma t)) (asciiLower name) = true := by
  have hmem : '\x00' ∈ lower finalSigma t := (mem_lower_mark (by simp)).mpr h
  obtain ⟨front, back, hsplit, hfront⟩ := List.eq_append_cons_of_mem hmem
  refine ⟨front, hfront, ?_⟩
  have hpattern : searchPattern (lower finalSigma t) =
      ('%' :: front) ++ '\x00' :: (back ++ ['%']) := by
    rw [searchPattern, hsplit]
    simp
  have hwhole := likeMatch_asciiLower front (q := []) (s := []) rfl
  rw [List.append_nil, List.append_nil] at hwhole
  rw [like, hpattern, cString_append (by simp [hfront]),
    cString_eq (nul_mem_asciiLower.not.mpr hfront)]
  exact likeMatch_percent.mpr ⟨asciiLower front, List.suffix_rfl, hwhole⟩

/-- A wildcard stands for any character. -/
def unmark (c : Char) : Char := if c = '%' ∨ c = '_' then 'x' else c

theorem unmark_ne (c : Char) : unmark c ≠ '%' ∧ unmark c ≠ '_' := by
  unfold unmark
  split
  · decide
  · rename_i hc
    exact ⟨fun h => hc (.inl h), fun h => hc (.inr h)⟩

theorem nul_not_mem_lower (h : '\x00' ∉ t) : '\x00' ∉ lower finalSigma t :=
  (mem_lower_mark (by simp)).not.mpr h

theorem nul_not_mem_unmarked (h : '\x00' ∉ t) : '\x00' ∉ (lower finalSigma t).map unmark := by
  intro hnul
  obtain ⟨c, hc, hcnul⟩ := List.mem_map.mp hnul
  unfold unmark at hcnul
  split at hcnul
  · exact absurd hcnul (by decide)
  · exact nul_not_mem_lower h (hcnul ▸ hc)

theorem like_unmarked (finalSigma : Text → Text → Bool) (h : '\x00' ∉ t) :
    like (searchPattern (lower finalSigma t)) (asciiLower ((lower finalSigma t).map unmark)) =
      true := by
  have hmem : '\x00' ∉ lower finalSigma t := nul_not_mem_lower h
  have hname : '\x00' ∉ (lower finalSigma t).map unmark := nul_not_mem_unmarked h
  have hpattern : '\x00' ∉ searchPattern (lower finalSigma t) := by simp [searchPattern, hmem]
  have hchars : ∀ c ∈ lower finalSigma t,
      c = '%' ∨ c = '_' ∨ likeKey c = likeKey (unmark c).toLower := by
    intro c _
    rw [likeKey_toLower]
    unfold unmark
    split
    · rename_i hc
      exact hc.imp_right .inl
    · exact .inr (.inr rfl)
  have hwhole := likeMatch_map (f := fun c => (unmark c).toLower) hchars
    (q := ['%']) (s := []) (likeMatch_all [])
  rw [List.append_nil] at hwhole
  rw [like, cString_eq hpattern, cString_eq (nul_mem_asciiLower.not.mpr hname), asciiLower,
    List.map_map]
  exact likeMatch_percent.mpr ⟨_, List.suffix_rfl, hwhole⟩

/-- Exchanging one character of a text, it is the same up to `f` if the character is. -/
theorem exists_infix_exchange {f : Char → Char} :
    (∃ u, u <:+: a ++ d :: b ∧ u.map f = (a ++ c :: b).map f) ↔ f d = f c := by
  constructor
  · rintro ⟨u, hu, hmap⟩
    have hlength : u.length = (a ++ d :: b).length := by
      have hlen := congrArg List.length hmap
      simpa using hlen
    rw [hu.eq_of_length hlength, List.map_append, List.map_append] at hmap
    have htail := List.append_cancel_left hmap
    rw [List.map_cons, List.map_cons, List.cons.injEq] at htail
    exact htail.1
  · intro h
    exact ⟨a ++ d :: b, List.infix_rfl, by simp [h]⟩

theorem noNul_of_findsExactly (hsearch : strip search ≠ [])
    (hall : ∀ salons, NulFree salons → FindsExactly finalSigma salons search) :
    '\x00' ∉ strip search := by
  intro hmem
  obtain ⟨name, hname, hlike⟩ := like_cut finalSigma hmem
  have hoccurs := ((hall _ (oneSalon_nulFree hname)).name_iff hsearch).2.mp hlike
  exact not_occurs (by decide) (by decide +kernel) hmem hname hoccurs

theorem plain_of_findsExactly (hsearch : strip search ≠ [])
    (hall : ∀ salons, NulFree salons → FindsExactly finalSigma salons search)
    (hnul : '\x00' ∉ strip search) : Plain (strip search) := by
  have hlike := like_unmarked finalSigma hnul
  have hname : '\x00' ∉ (lower finalSigma (strip search)).map unmark := nul_not_mem_unmarked hnul
  have hoccurs := ((hall _ (oneSalon_nulFree hname)).name_iff hsearch).2.mp hlike
  constructor
  · intro hmem
    refine not_occurs (by decide) (by decide +kernel) hmem ?_ hoccurs
    intro hpercent
    obtain ⟨c, -, hc⟩ := List.mem_map.mp hpercent
    exact (unmark_ne c).1 hc
  · intro hmem
    refine not_occurs (by decide) (by decide +kernel) hmem ?_ hoccurs
    intro hline
    obtain ⟨c, -, hc⟩ := List.mem_map.mp hline
    exact (unmark_ne c).2 hc

/-- The small letters of İ are two characters. -/
theorem noDotted_of_findsExactly (hsearch : strip search ≠ [])
    (hall : ∀ salons, NulFree salons → FindsExactly finalSigma salons search)
    (hnul : '\x00' ∉ strip search) (hplain : Plain (strip search)) : 'İ' ∉ strip search := by
  intro hmem
  have hlike := ((hall _ (oneSalon_nulFree hnul)).name_iff hsearch).2.mpr
    ⟨strip search, List.infix_rfl, rfl⟩
  have hnul' : '\x00' ∉ lower finalSigma (strip search) := nul_not_mem_lower hnul
  obtain ⟨u, hu, hkeys⟩ := (like_lower_contains (plain_lower hplain) hnul' hnul).mp hlike
  have hlength := congrArg List.length hkeys
  rw [List.length_map, List.length_map, length_lower] at hlength
  have hle := hu.length_le
  have hpos := List.count_pos_iff.mpr hmem
  omega

/-- Any two characters that are compared can be exchanged in the text that is searched for. -/
theorem sameCase_of_findsExactly (hsearch : strip search ≠ [])
    (hall : ∀ salons, NulFree salons → FindsExactly finalSigma salons search)
    (hnul : '\x00' ∉ strip search) (hplain : Plain (strip search)) (hdotted : 'İ' ∉ strip search)
    (hc : c ∈ lower finalSigma (strip search)) (hd : d ≠ '\x00') :
    likeKey c = likeKey d ↔ fold c = fold d := by
  have hnul' : '\x00' ∉ lower finalSigma (strip search) := nul_not_mem_lower hnul
  obtain ⟨a, b, hsplit⟩ := List.append_of_mem hc
  have hname : '\x00' ∉ a ++ d :: b := by
    rw [hsplit] at hnul'
    simp only [List.mem_append, List.mem_cons, not_or] at hnul' ⊢
    exact ⟨hnul'.1, hd.symm, hnul'.2.2⟩
  have hiff := ((hall _ (oneSalon_nulFree hname)).name_iff hsearch).2
  rw [searchPattern, like_lower_contains (plain_lower hplain) hnul' hname, Occurs,
    ← map_fold_lower hdotted, hsplit, exists_infix_exchange, exists_infix_exchange] at hiff
  rw [eq_comm, hiff, eq_comm]

end OneSalon

/-- When the search is clear; and a search that is not, for some table without NULs, goes wrong
for some table without NULs. -/
theorem search_exact_iff (finalSigma : Text → Text → Bool) (search : Text)
    (hsearch : strip search ≠ []) :
    (∀ salons, Clear finalSigma salons (strip search) → FindsExactly finalSigma salons search) ∧
    ((∀ salons, NulFree salons → FindsExactly finalSigma salons search) ↔
      ∀ salons, NulFree salons → Clear finalSigma salons (strip search)) := by
  refine ⟨fun salons => Clear.findsExactly hsearch, fun hall => ?_, fun hclear salons hsalons =>
    (hclear salons hsalons).findsExactly hsearch⟩
  have hnul := noNul_of_findsExactly hsearch hall
  have hplain := plain_of_findsExactly hsearch hall hnul
  have hdotted := noDotted_of_findsExactly hsearch hall hnul hplain
  intro salons hsalons
  refine ⟨hplain, hnul, hdotted, fun _ => ?_, hsalons, ?_⟩
  · exact ((hall (oneSalon []) (oneSalon_nulFree (by simp))).name_iff hsearch).1
  · intro c hc s hs d hd
    exact sameCase_of_findsExactly hsearch hall hnul hplain hdotted hc
      fun heq => hsalons s hs (heq ▸ hd)

theorem search_exact_iff_elan :
    FindsExactly (fun _ _ => false) (oneSalon "Hotel ELAN".toList) " Elan".toList := by
  have hsame : ((lower (fun _ _ => false) (strip " Elan".toList)).all fun c =>
      (storedTexts (oneSalon "Hotel ELAN".toList)).all fun s => s.all fun d =>
        decide (likeKey c = likeKey d ↔ fold c = fold d)) = true := by decide +kernel
  simp only [List.all_eq_true, decide_eq_true_eq] at hsame
  apply (search_exact_iff (fun _ _ => false) " Elan".toList (by decide)).1
  refine ⟨by unfold Plain; decide, by decide, by decide, fun _ => by decide +kernel, ?_, hsame⟩
  exact oneSalon_nulFree (by decide)

/-- A salon is not found by its own name. -/
theorem own_name_not_found :
    ¬ ∀ (finalSigma : Text → Text → Bool) (salons : Table Salon) (search : Text),
      strip search ≠ [] → FindsExactly finalSigma salons search := by
  intro h
  have hsearch : strip "Élan".toList ≠ [] := by decide
  have hfinds := (h (fun _ _ => false) (oneSalon "Élan".toList) "Élan".toList hsearch).name_iff
    hsearch
  have hlike := hfinds.2.mpr ⟨"Élan".toList, List.infix_rfl, by decide +kernel⟩
  exact absurd hlike (by decide +kernel)

end Gloora
