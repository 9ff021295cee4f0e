import Gloora.Lib.Matching

/-!
# What a matcher consumes

`Reads m p` says that `m` only consumes characters with `p`, `Ends m p` that the last one
it consumes has `p`. A `Local` matcher looks at no character beyond the ones it consumes.
Together they find the one place where an input splits between two matchers.
-/

namespace Matching
set_option autoImplicit false

universe u v w

variable {α : Type u} {β : Type v} {γ : Type w}

def Reads (m : Matcher α) (p : Char → Prop) : Prop :=
  ∀ s, ∀ way ∈ m s, ∃ used, s = used ++ way.2 ∧ ∀ c ∈ used, p c

def Ends (m : Matcher α) (p : Char → Prop) : Prop :=
  ∀ s, ∀ way ∈ m s, ∃ used c, s = used ++ c :: way.2 ∧ p c

/-- A way on the longer input `s ++ t` that leaves `t` alone. -/
def extend (t : List Char) (way : α × List Char) : α × List Char := (way.1, way.2 ++ t)

/-- The ways that leave at least `n` characters. -/
def leaving (n : Nat) (ways : List (α × List Char)) : List (α × List Char) :=
  ways.filter fun way => n ≤ way.2.length

structure Local (m : Matcher α) : Prop where
  suffix : ∀ s, ∀ way ∈ m s, way.2 <:+ s
  leaving : ∀ s t, leaving t.length (m (s ++ t)) = (m s).map (extend t)

section Reads
variable {m n : Matcher α} {k : α → Matcher β} {p : Char → Prop}

theorem mem_char {cls : Char → Option α} {s : List Char} {way : α × List Char}
    (h : way ∈ char cls s) : ∃ c, s = c :: way.2 ∧ cls c = some way.1 := by
  cases s with
  | nil => simp at h
  | cons c cs =>
    rw [char_cons] at h
    cases hc : cls c with
    | none => simp [hc] at h
    | some a =>
      obtain rfl : way = (a, cs) := by simpa [hc] using h
      exact ⟨c, rfl, hc⟩

theorem reads_char {cls : Char → Option α} (h : ∀ c a, cls c = some a → p c) :
    Reads (char cls) p := by
  intro s way hway
  obtain ⟨c, hs, hc⟩ := mem_char hway
  exact ⟨[c], hs, by simpa using h c way.1 hc⟩

theorem reads_lit {c : Char} (hc : p c) : Reads (lit c) p := by
  apply reads_char
  intro d a h
  split at h
  · rename_i hd
    exact hd ▸ hc
  · cases h

theorem reads_done (a : α) : Reads (done a) p := by
  intro s way hway
  obtain rfl : way = (a, s) := by simpa using hway
  exact ⟨[], rfl, by simp⟩

theorem reads_andThen (hm : Reads m p) (hk : ∀ a, Reads (k a) p) : Reads (andThen m k) p := by
  intro s way hway
  obtain ⟨first, hfirst, hsecond⟩ := List.mem_flatMap.mp hway
  obtain ⟨used, hs, hp⟩ := hm s first hfirst
  obtain ⟨used', hs', hp'⟩ := hk first.1 first.2 way hsecond
  refine ⟨used ++ used', by rw [hs, hs', List.append_assoc], ?_⟩
  intro c hc
  exact (List.mem_append.mp hc).elim (hp c) (hp' c)

theorem reads_orElse (hm : Reads m p) (hn : Reads n p) : Reads (orElse m n) p := by
  intro s way hway
  exact (List.mem_append.mp hway).elim (hm s way) (hn s way)

theorem reads_plus {q : Char → Bool} (h : ∀ c, q c = true → p c) : Reads (plus q) p := by
  intro s
  induction s with
  | nil => simp [plus]
  | cons c cs ih =>
    intro way hway
    simp only [plus] at hway
    split at hway
    · rename_i hc
      rcases List.mem_append.mp hway with hlong | hshort
      · obtain ⟨used, hs, hp⟩ := ih way hlong
        exact ⟨c :: used, by rw [hs, List.cons_append], List.forall_mem_cons.mpr ⟨h c hc, hp⟩⟩
      · obtain rfl := List.mem_singleton.mp hshort
        exact ⟨[c], rfl, by simpa using h c hc⟩
    · cases hway

theorem ends_plus (q : Char → Bool) : Ends (plus q) fun c => q c = true := by
  intro s
  induction s with
  | nil => simp [plus]
  | cons c cs ih =>
    intro way hway
    simp only [plus] at hway
    split at hway
    · rename_i hc
      rcases List.mem_append.mp hway with hlong | hshort
      · obtain ⟨used, d, hs, hd⟩ := ih way hlong
        exact ⟨c :: used, d, by rw [hs, List.cons_append], hd⟩
      · obtain rfl := List.mem_singleton.mp hshort
        exact ⟨[], c, rfl, hc⟩
    · cases hway

/-- What comes last decides the last character. -/
theorem ends_andThen (hm : Local m) (hk : ∀ a, Ends (k a) p) : Ends (andThen m k) p := by
  intro s way hway
  obtain ⟨first, hfirst, hsecond⟩ := List.mem_flatMap.mp hway
  obtain ⟨used, rfl⟩ := hm.suffix s first hfirst
  obtain ⟨used', c, hs, hc⟩ := hk first.1 first.2 way hsecond
  exact ⟨used ++ used', c, by rw [hs, List.append_assoc], hc⟩

theorem ends_andThen_done (f : α → β) (hm : Ends m p) :
    Ends (andThen m fun a => done (f a)) p := by
  intro s way hway
  obtain ⟨first, hfirst, hsecond⟩ := List.mem_flatMap.mp hway
  obtain rfl : way = (f first.1, first.2) := by simpa using hsecond
  exact hm s first hfirst

end Reads

section Local
variable {m n : Matcher α} {k : α → Matcher β}

theorem leaving_append (i : Nat) (ways ways' : List (α × List Char)) :
    leaving i (ways ++ ways') = leaving i ways ++ leaving i ways' :=
  List.filter_append _ _

theorem leaving_cons_of_le {i : Nat} {way : α × List Char} {ways : List (α × List Char)}
    (h : i ≤ way.2.length) : leaving i (way :: ways) = way :: leaving i ways :=
  List.filter_cons_of_pos (by simpa using h)

theorem leaving_cons_of_lt {i : Nat} {way : α × List Char} {ways : List (α × List Char)}
    (h : way.2.length < i) : leaving i (way :: ways) = leaving i ways :=
  List.filter_cons_of_neg (by simpa using h)

theorem leaving_extend (t : List Char) (ways : List (α × List Char)) :
    leaving t.length (ways.map (extend t)) = ways.map (extend t) := by
  apply List.filter_eq_self.mpr
  intro way hway
  obtain ⟨first, -, rfl⟩ := List.mem_map.mp hway
  simp [extend]

theorem leaving_none {i : Nat} {ways : List (α × List Char)}
    (h : ∀ way ∈ ways, way.2.length < i) : leaving i ways = [] := by
  apply List.filter_eq_nil_iff.mpr
  intro way hway
  simpa using h way hway

theorem leaving_all {i : Nat} {ways : List (α × List Char)}
    (h : ∀ way ∈ ways, i ≤ way.2.length) : leaving i ways = ways := by
  apply List.filter_eq_self.mpr
  intro way hway
  simpa using h way hway

theorem local_char (cls : Char → Option α) : Local (char cls) := by
  constructor
  · intro s way hway
    obtain ⟨c, hs, -⟩ := mem_char hway
    exact ⟨[c], hs.symm⟩
  · intro s t
    cases s with
    | nil =>
      apply leaving_none
      intro way hway
      obtain ⟨c, hs, -⟩ := mem_char hway
      have hlen := congrArg List.length hs
      simp only [List.nil_append, List.length_cons] at hlen
      omega
    | cons c cs =>
      rw [List.cons_append, char_cons, char_cons]
      cases cls c with
      | none => rfl
      | some a => exact leaving_extend t [(a, cs)]

theorem local_done (a : α) : Local (done a) := by
  constructor
  · intro s way hway
    obtain rfl : way = (a, s) := by simpa using hway
    exact List.suffix_refl s
  · intro s t
    exact leaving_extend t [(a, s)]

theorem local_orElse (hm : Local m) (hn : Local n) : Local (orElse m n) := by
  constructor
  · intro s way hway
    exact (List.mem_append.mp hway).elim (hm.suffix s way) (hn.suffix s way)
  · intro s t
    rw [orElse, leaving_append, hm.leaving, hn.leaving, orElse, List.map_append]

theorem local_plus (q : Char → Bool) : Local (plus q) := by
  constructor
  · intro s way hway
    obtain ⟨used, c, hs, -⟩ := ends_plus q s way hway
    exact ⟨used ++ [c], by rw [hs, List.append_assoc, List.singleton_append]⟩
  · intro s t
    induction s with
    | nil =>
      apply leaving_none
      intro way hway
      obtain ⟨used, c, hs, -⟩ := ends_plus q t way hway
      have hlen := congrArg List.length hs
      simp only [List.length_append, List.length_cons] at hlen
      omega
    | cons c cs ih =>
      simp only [List.cons_append, plus]
      split
      · rw [leaving_append, ih, List.map_append]
        congr 1
        exact leaving_extend t [((), cs)]
      · rfl

/-- A first way that eats into the characters to be left leaves too few to every second. -/
theorem leaving_flatMap (hk : ∀ a, Local (k a)) (i : Nat) (ways : List (α × List Char)) :
    leaving i (ways.flatMap fun way => k way.1 way.2) =
      (leaving i ways).flatMap fun way => leaving i (k way.1 way.2) := by
  induction ways with
  | nil => rfl
  | cons way ways ih =>
    rw [List.flatMap_cons, leaving_append, ih]
    by_cases hlong : i ≤ way.2.length
    · rw [leaving_cons_of_le hlong, List.flatMap_cons]
    · have hnone : leaving i (k way.1 way.2) = [] := by
        apply leaving_none
        intro second hsecond
        have hle := ((hk way.1).suffix way.2 second hsecond).length_le
        omega
      rw [leaving_cons_of_lt (by omega), hnone, List.nil_append]

theorem local_andThen (hm : Local m) (hk : ∀ a, Local (k a)) : Local (andThen m k) := by
  constructor
  · intro s way hway
    obtain ⟨first, hfirst, hsecond⟩ := List.mem_flatMap.mp hway
    exact ((hk first.1).suffix first.2 way hsecond).trans (hm.suffix s first hfirst)
  · intro s t
    rw [andThen, leaving_flatMap hk, hm.leaving, andThen, List.flatMap_map, List.map_flatMap]
    apply List.flatMap_congr
    intro way _
    exact (hk way.1).leaving way.2 t

end Local

section Split
variable {m : Matcher α} {k : Matcher β} {p : Char → Prop} {s t t' : List Char} {sep : Char}

/-- No way reaches into a text without the character the matcher has to end with. -/
theorem Ends.stays (hends : Ends m p) (hm : Local m) (ht : ∀ c ∈ t, ¬ p c) :
    m (s ++ t) = (m s).map (extend t) := by
  rw [← hm.leaving, leaving_all]
  intro way hway
  obtain ⟨used, c, hs, hc⟩ := hends _ way hway
  by_contra hlt
  have hmem : c ∈ t := by
    rcases List.append_eq_append_iff.mp hs with ⟨rest, -, rfl⟩ | ⟨rest, -, hrest⟩
    · simp
    · cases rest with
      | nil =>
        rw [List.nil_append] at hrest
        rw [← hrest]
        exact List.mem_cons_self
      | cons d rest =>
        have hlen := congrArg List.length hrest
        simp only [List.length_cons, List.length_append] at hlen
        omega
  exact ht c hmem hc

/-- No way passes a character the matcher cannot read. -/
theorem Reads.stays (hreads : Reads k p) (hk : Local k) (hsep : ¬ p sep) :
    k (s ++ sep :: t) = (k s).map (extend (sep :: t)) := by
  rw [← hk.leaving, leaving_all]
  intro way hway
  obtain ⟨used, hs, hp⟩ := hreads _ way hway
  by_contra hlt
  have hmem : sep ∈ used := by
    rcases List.append_eq_append_iff.mp hs with ⟨rest, rfl, hrest⟩ | ⟨rest, -, hrest⟩
    · cases rest with
      | nil =>
        rw [List.nil_append] at hrest
        rw [hrest] at hlt
        exact absurd (Nat.le_refl _) hlt
      | cons d rest =>
        obtain ⟨rfl, -⟩ := List.cons.inj hrest
        simp
    · have hlen := congrArg List.length hrest
      simp only [List.length_cons, List.length_append] at hlen hlt
      omega
  exact hsep (hp sep hmem)

theorem fullMatch_eq_some {b : β} :
    fullMatch k t = some b ↔ ∃ others, k t = (b, []) :: others := by
  constructor
  · intro h
    unfold fullMatch at h
    split at h
    · rename_i b' others hways
      obtain rfl := Option.some.inj h
      exact ⟨others, hways⟩
    · cases h
  · rintro ⟨others, hways⟩
    exact fullMatch_of_head hways

theorem Reads.of_fullMatch {b : β} (hreads : Reads k p) (h : fullMatch k t = some b) :
    ∀ c ∈ t, p c := by
  obtain ⟨others, hways⟩ := fullMatch_eq_some.mp h
  obtain ⟨used, hused, hp⟩ := hreads t (b, []) (by rw [hways]; exact List.mem_cons_self)
  rw [List.append_nil] at hused
  exact hused ▸ hp

/-- `k` after `m`, with what both found. -/
def followed (m : Matcher α) (k : Matcher β) (f : α → β → γ) : Matcher γ :=
  andThen m fun a => andThen k fun b => done (f a b)

/-- Of the ways of `m` on a text and the separator, those that leave the separator to `k` die or
leave it over, so that the first match of both is the first way that leaves nothing. -/
theorem flatMap_first {f : α → β → γ} {c : γ} (hk : Local k) (hreads : Reads k p) (hsep : ¬ p sep)
    {ways : List (α × List Char)} (hways : ∀ way ∈ ways, way.2 = [] ∨ ∃ r, way.2 = r ++ [sep])
    {others : List (γ × List Char)}
    (h : (ways.flatMap fun way => andThen k (fun b => done (f way.1 b)) (way.2 ++ t)) =
      (c, []) :: others) :
    ∃ front a back b more, ways = front ++ (a, []) :: back ∧
      (∀ way ∈ front, ∃ r, way.2 = r ++ [sep] ∧ k r = []) ∧ k t = (b, []) :: more ∧ c = f a b := by
  induction ways with
  | nil => cases h
  | cons way ways ih =>
    rw [List.flatMap_cons] at h
    have hrest := ih fun way hway => hways way (List.mem_cons_of_mem _ hway)
    rcases hways way List.mem_cons_self with hnil | ⟨r, hr⟩
    · rw [hnil, List.nil_append, andThen] at h
      cases hkt : k t with
      | nil =>
        rw [hkt] at h
        obtain ⟨_, _, _, _, _, -, -, hcons, -⟩ := hrest h
        cases hkt.symm.trans hcons
      | cons first more =>
        obtain ⟨b, left⟩ := first
        rw [hkt, List.flatMap_cons] at h
        obtain ⟨hc, -⟩ := List.cons.inj h
        obtain ⟨hvalue, rfl⟩ := Prod.mk.inj hc
        exact ⟨[], way.1, ways, b, more, by rw [List.nil_append, ← hnil], by simp, rfl,
          hvalue.symm⟩
    · rw [hr, List.append_assoc, List.singleton_append, andThen, hreads.stays hk hsep] at h
      cases hkr : k r with
      | nil =>
        rw [hkr] at h
        obtain ⟨front, a, back, b, more, rfl, hfront, hkt, hc⟩ := hrest h
        exact ⟨way :: front, a, back, b, more, rfl,
          List.forall_mem_cons.mpr ⟨⟨r, hr, hkr⟩, hfront⟩, hkt, hc⟩
      | cons first more =>
        rw [hkr] at h
        obtain ⟨hc, -⟩ := List.cons.inj h
        have hleft := (Prod.mk.inj hc).2
        simp [extend] at hleft

section Followed
variable {f : α → β → γ} {c : γ} (hm : Local m) (hends : Ends m p)

include hm hends in
theorem followed_split (u : List Char) (hu : ∀ c ∈ u, ¬ p c) : followed m k f (s ++ sep :: u) =
    (m (s ++ [sep])).flatMap fun way => andThen k (fun b => done (f way.1 b)) (way.2 ++ u) := by
  rw [← List.singleton_append, ← List.append_assoc, followed, andThen, hends.stays hm hu,
    List.flatMap_map]
  rfl

include hm in
theorem Local.rest_singleton : ∀ way ∈ m (s ++ [sep]), way.2 = [] ∨ ∃ r, way.2 = r ++ [sep] := by
  intro way hway
  rcases List.suffix_concat_iff.mp (hm.suffix _ way hway) with hnil | ⟨r, hr, -⟩
  · exact .inl hnil
  · exact .inr ⟨r, hr⟩

include hm hends in
/-- When `m` ends with characters that `k` cannot read, a text without them is read by `k`
alone. -/
theorem followed_found (hk : Local k) (hreads : Reads k fun c => ¬ p c) (hsep : p sep)
    (ht : ∀ c ∈ t, ¬ p c) (h : fullMatch (followed m k f) (s ++ sep :: t) = some c) :
    ∃ a b, c = f a b ∧ fullMatch k t = some b := by
  obtain ⟨others, hfirst⟩ := fullMatch_eq_some.mp h
  rw [followed_split hm hends t ht] at hfirst
  obtain ⟨_, a, _, b, _, -, -, hkt, hc⟩ :=
    flatMap_first hk hreads (not_not.mpr hsep) hm.rest_singleton hfirst
  exact ⟨a, b, hc, fullMatch_of_head hkt⟩

include hm hends in
/-- When `m` ends with characters that `k` cannot read, the text behind the last of them is
read by `k` alone, and another text that `k` reads may take its place. -/
theorem followed_swap {b b' : β} (hk : Local k) (hreads : Reads k fun c => ¬ p c) (hsep : p sep)
    (hb : fullMatch k t = some b) (hb' : fullMatch k t' = some b')
    (h : fullMatch (followed m k f) (s ++ sep :: t) = some c) :
    ∃ a, c = f a b ∧ fullMatch (followed m k f) (s ++ sep :: t') = some (f a b') := by
  obtain ⟨others, hfirst⟩ := fullMatch_eq_some.mp h
  rw [followed_split hm hends t (hreads.of_fullMatch hb)] at hfirst
  obtain ⟨front, a, back, b'', _, hways, hfront, hkt, hc⟩ :=
    flatMap_first hk hreads (not_not.mpr hsep) hm.rest_singleton hfirst
  obtain rfl : b'' = b := Option.some.inj ((fullMatch_of_head hkt).symm.trans hb)
  obtain ⟨others', hkt'⟩ := fullMatch_eq_some.mp hb'
  have hdead : (front.flatMap fun way => andThen k (fun b => done (f way.1 b)) (way.2 ++ t')) =
      [] := by
    apply List.flatMap_eq_nil_iff.mpr
    intro way hway
    obtain ⟨r, hr, hkr⟩ := hfront way hway
    rw [hr, List.append_assoc, List.singleton_append, andThen,
      hreads.stays hk (not_not.mpr hsep), hkr]
    rfl
  refine ⟨a, hc, ?_⟩
  unfold fullMatch
  rw [followed_split hm hends t' (hreads.of_fullMatch hb'), hways, List.flatMap_append, hdead,
    List.nil_append, List.flatMap_cons, List.nil_append, andThen, hkt']
  rfl

end Followed

end Split

end Matching
