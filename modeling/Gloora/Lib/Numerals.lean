import Gloora.Lib.JsText

/-!
# Integers as text

`pyStr` is `str` on an `int`. What `pyInt` reads is written by `pyStr` in a form from which
it is read again, with no more digits than before.
-/

namespace PyText
set_option autoImplicit false

/-- `str(n)` -/
def pyStr (n : Int) : Text :=
  if n < 0 then '-' :: Nat.toDigits 10 n.natAbs else Nat.toDigits 10 n.natAbs

section
variable {s : Text} {ds : List Nat} {n : Int} {c : Char}

theorem digitRun_digits (hne : s ≠ []) (h : ∀ c ∈ s, c.isDigit = true) :
    digitRun s = some (s.map fun c => c.toNat - 48) := by
  induction s using digitRun.induct with
  | case1 => exact absurd rfl hne
  | case2 c => simp [digitRun, JsText.digitVal?_of_isDigit (h c List.mem_cons_self)]
  | case3 c cs ih => exact absurd (h '_' (by simp)) (by decide)
  | case4 c d cs hunderscore ih =>
    obtain ⟨hc, hrest⟩ := List.forall_mem_cons.mp h
    rw [digitRun]
    · simp [JsText.digitVal?_of_isDigit hc, ih (List.cons_ne_nil d cs) hrest]
    · exact hunderscore

theorem ofDigits_toDigits (n : Nat) :
    ofDigits ((Nat.toDigits 10 n).map fun c => c.toNat - 48) = n := by
  rw [ofDigits, List.foldl_map]
  exact Nat.ofDigitChars_ten_toDigits

theorem mem_pyStr (h : c ∈ pyStr n) : c = '-' ∨ c.isDigit = true := by
  unfold pyStr at h
  split at h
  · rcases List.mem_cons.mp h with rfl | hdigit
    · exact .inl rfl
    · exact .inr (Nat.isDigit_of_mem_toDigits (by decide) (by decide) hdigit)
  · exact .inr (Nat.isDigit_of_mem_toDigits (by decide) (by decide) h)

theorem isSpace_of_isDigit (h : c.isDigit = true) : isSpace c = false := by
  obtain ⟨hlow, hhigh⟩ := JsText.isDigit_bounds h
  have hcodes : (spaceCodes.all fun k => k < 48 || 57 < k) = true := by decide
  by_contra hspace
  rw [Bool.not_eq_false, isSpace, List.contains_iff_mem] at hspace
  have hnot := List.all_eq_true.mp hcodes _ hspace
  simp only [Bool.or_eq_true, decide_eq_true_eq] at hnot
  omega

theorem strip_pyStr (n : Int) : strip (pyStr n) = pyStr n := by
  apply JsText.strip_of_isSpace
  intro c hc
  rcases mem_pyStr hc with rfl | hdigit
  · decide
  · exact isSpace_of_isDigit hdigit

theorem splitSign_digits (h : ∀ c ∈ s, c.isDigit = true) : splitSign s = (false, s) := by
  unfold splitSign
  split
  · exact absurd (h '-' List.mem_cons_self) (by decide)
  · exact absurd (h '+' List.mem_cons_self) (by decide)
  · rfl

theorem splitSign_pyStr (n : Int) :
    splitSign (pyStr n) = (decide (n < 0), Nat.toDigits 10 n.natAbs) := by
  unfold pyStr
  split
  · rename_i hneg
    rw [decide_eq_true hneg]
    rfl
  · rename_i hneg
    rw [decide_eq_false hneg]
    exact splitSign_digits fun c hc => Nat.isDigit_of_mem_toDigits (by decide) (by decide) hc

theorem pyInt_pyStr (h : (Nat.toDigits 10 n.natAbs).length ≤ 4300) : pyInt (pyStr n) = some n := by
  have hrun : digitRun (Nat.toDigits 10 n.natAbs) =
      some ((Nat.toDigits 10 n.natAbs).map fun c => c.toNat - 48) :=
    digitRun_digits Nat.toDigits_ne_nil
      fun c hc => Nat.isDigit_of_mem_toDigits (by decide) (by decide) hc
  rw [pyInt, unpad_of_strip (strip_pyStr n), splitSign_pyStr]
  simp only [hrun, Option.bind_eq_bind, Option.bind_some, List.length_map, Nat.not_lt.mpr h,
    if_false, ofDigits_toDigits, decide_eq_true_eq]
  split_ifs with hneg
  · simp only [Option.pure_def, Option.some.injEq]
    omega
  · simp only [Option.pure_def, Option.some.injEq]
    omega

theorem digitVal?_lt {d : Nat} (h : digitVal? c = some d) : d < 10 := by
  obtain ⟨z, hz, rfl⟩ := Option.map_eq_some_iff.mp h
  have hrange := List.find?_some hz
  simp only [Bool.and_eq_true, decide_eq_true_eq] at hrange
  omega

theorem digitRun_lt (h : digitRun s = some ds) : ds ≠ [] ∧ ∀ d ∈ ds, d < 10 := by
  induction s using digitRun.induct generalizing ds with
  | case1 => cases h
  | case2 c =>
    obtain ⟨d, hd, rfl⟩ := Option.map_eq_some_iff.mp h
    exact ⟨List.cons_ne_nil _ _, List.forall_mem_singleton.mpr (digitVal?_lt hd)⟩
  | case3 c cs ih =>
    simp only [digitRun, Option.bind_eq_bind, Option.bind_eq_some_iff] at h
    obtain ⟨d, hd, ds', hds, hcons⟩ := h
    obtain rfl := Option.some.inj hcons
    exact ⟨List.cons_ne_nil _ _, List.forall_mem_cons.mpr ⟨digitVal?_lt hd, (ih hds).2⟩⟩
  | case4 c d cs hunderscore ih =>
    rw [digitRun] at h
    · simp only [Option.bind_eq_bind, Option.bind_eq_some_iff] at h
      obtain ⟨v, hv, vs, hvs, hcons⟩ := h
      obtain rfl := Option.some.inj hcons
      exact ⟨List.cons_ne_nil _ _, List.forall_mem_cons.mpr ⟨digitVal?_lt hv, (ih hvs).2⟩⟩
    · exact hunderscore

theorem ofDigits_lt (h : ∀ d ∈ ds, d < 10) : ofDigits ds < 10 ^ ds.length := by
  induction ds using List.reverseRecOn with
  | nil => simp [ofDigits]
  | append_singleton ds d ih =>
    obtain ⟨hds, hd⟩ := List.forall_mem_append.mp h
    have hlast := List.forall_mem_singleton.mp hd
    have hinit := ih hds
    rw [ofDigits, List.foldl_append, List.length_append]
    simp only [List.foldl_cons, List.foldl_nil, List.length_singleton, Nat.pow_succ]
    rw [ofDigits] at hinit
    omega

/-- What was read can be written: the limit on digits holds of it. -/
theorem length_of_pyInt (h : pyInt s = some n) : (Nat.toDigits 10 n.natAbs).length ≤ 4300 := by
  unfold pyInt at h
  simp only [Option.bind_eq_bind, Option.bind_eq_some_iff] at h
  obtain ⟨ds, hds, hn⟩ := h
  obtain ⟨hne, hlt⟩ := digitRun_lt hds
  split at hn
  · cases hn
  · rename_i hlength
    have hnat : n.natAbs = ofDigits ds := by
      split at hn
      · rw [← Option.some.inj hn]
        exact Int.natAbs_neg _
      · rw [← Option.some.inj hn]
        exact Int.natAbs_natCast _
    rw [hnat]
    exact Nat.le_trans ((Nat.length_toDigits_le_iff (by decide)
      (List.length_pos_of_ne_nil hne)).mpr (ofDigits_lt hlt)) (Nat.not_lt.mp hlength)

end

end PyText
