import Mathlib.Data.List.Lex
import Mathlib.Tactic.Ring
import Gloora.Lib.Calendar

/-!
# The order of dates and their texts

Ordinals order the dates by year, month and day, and so do texts that give every field its
full width. A `LocalTime` is a naive `datetime`.
-/

namespace Calendar
set_option autoImplicit false

open PyText

section Ordinals
variable {a b : Date} {y m m' : Nat}

def daysInYear (y : Nat) : Nat := if isLeap y then 366 else 365

theorem isLeap_iff : isLeap y = true ↔ y % 4 = 0 ∧ (y % 100 ≠ 0 ∨ y % 400 = 0) := by
  simp only [isLeap, Bool.and_eq_true, Bool.or_eq_true, beq_iff_eq, bne_iff_ne]

theorem daysBeforeYear_succ (h : 1 ≤ y) :
    daysBeforeYear (y + 1) = daysBeforeYear y + daysInYear y := by
  obtain ⟨k, rfl⟩ := Nat.exists_eq_add_of_le' h
  have hfour : (k + 1) / 4 = if (k + 1) % 4 = 0 then k / 4 + 1 else k / 4 := by
    split <;> omega
  have hhundred : (k + 1) / 100 = if (k + 1) % 100 = 0 then k / 100 + 1 else k / 100 := by
    split <;> omega
  have hfourhundred : (k + 1) / 400 = if (k + 1) % 400 = 0 then k / 400 + 1 else k / 400 := by
    split <;> omega
  have hquotients : k / 100 ≤ k / 4 := by omega
  have hdivides : (k + 1) % 100 = 0 → (k + 1) % 4 = 0 := by omega
  have hdivides' : (k + 1) % 400 = 0 → (k + 1) % 100 = 0 := by omega
  simp only [daysBeforeYear, daysInYear, isLeap_iff, Nat.add_sub_cancel, hfour, hhundred,
    hfourhundred]
  generalize k / 4 = a at *
  generalize k / 100 = b at *
  generalize k / 400 = c at *
  split_ifs <;> omega

theorem daysInMonth_le (y m : Nat) : daysInMonth y m ≤ 31 := by
  unfold daysInMonth
  split_ifs <;> omega

theorem daysBeforeYear_le {y' : Nat} (h : 1 ≤ y) (hle : y ≤ y') :
    daysBeforeYear y ≤ daysBeforeYear y' := by
  induction y', hle using Nat.le_induction with
  | base => exact Nat.le_refl _
  | succ y' hle ih =>
    rw [daysBeforeYear_succ (h.trans hle)]
    omega

theorem daysBeforeMonth_succ (h : 1 ≤ m) :
    daysBeforeMonth y (m + 1) = daysBeforeMonth y m + daysInMonth y m := by
  obtain ⟨k, rfl⟩ := Nat.exists_eq_add_of_le' h
  simp only [daysBeforeMonth, Nat.add_sub_cancel, List.range_succ, List.map_append,
    List.sum_append, List.map_cons, List.map_nil, List.sum_cons, List.sum_nil, Nat.add_zero]

theorem daysBeforeMonth_le (h : 1 ≤ m) (hle : m ≤ m') :
    daysBeforeMonth y m ≤ daysBeforeMonth y m' := by
  induction m', hle using Nat.le_induction with
  | base => exact Nat.le_refl _
  | succ m' hle ih =>
    rw [daysBeforeMonth_succ (h.trans hle)]
    omega

theorem daysBeforeMonth_end (y : Nat) : daysBeforeMonth y 13 = daysInYear y := by
  simp only [daysBeforeMonth, daysInMonth, daysInYear, List.range_succ, List.range_zero]
  cases isLeap y <;> rfl

/-- The day of the year of a date is one of its days. -/
theorem dayOfYear_le (d : Date) : daysBeforeMonth d.year d.month + d.day ≤ daysInYear d.year := by
  obtain ⟨-, ⟨hm1, hm2⟩, -, hday⟩ := d.valid
  have hsucc := daysBeforeMonth_succ (y := d.year) hm1
  have hle : daysBeforeMonth d.year (d.month + 1) ≤ daysBeforeMonth d.year 13 :=
    daysBeforeMonth_le (by omega) (by omega)
  rw [daysBeforeMonth_end] at hle
  omega

def Date.Before (a b : Date) : Prop :=
  a.year < b.year ∨ (a.year = b.year ∧
    (a.month < b.month ∨ (a.month = b.month ∧ a.day < b.day)))

theorem Date.ordinal_lt (h : a.Before b) : a.ordinal < b.ordinal := by
  obtain ⟨⟨hy, -⟩, ⟨hm, -⟩, hd, hday⟩ := a.valid
  have hb : 1 ≤ b.day := b.valid.2.2.1
  unfold Date.ordinal
  rcases h with hyear | ⟨hyear, hmonth | ⟨hmonth, hday⟩⟩
  · have hsucc := daysBeforeYear_succ hy
    have hle := daysBeforeYear_le (y := a.year + 1) (by omega) (Nat.succ_le_of_lt hyear)
    have hbound := dayOfYear_le a
    omega
  · have hsucc := daysBeforeMonth_succ (y := a.year) hm
    have hle := daysBeforeMonth_le (y := a.year) (m := a.month + 1) (by omega)
      (Nat.succ_le_of_lt hmonth)
    rw [← hyear]
    omega
  · rw [← hyear, ← hmonth]
    omega

theorem Date.before_or_eq (a b : Date) : a.Before b ∨ a = b ∨ b.Before a := by
  unfold Date.Before
  have hsame : a.year = b.year → a.month = b.month → a.day = b.day → a = b := by
    intro hyear hmonth hday
    cases a
    cases b
    simp only [Date.mk.injEq]
    exact ⟨hyear, hmonth, hday⟩
  by_cases hyear : a.year = b.year
  · by_cases hmonth : a.month = b.month
    · by_cases hday : a.day = b.day
      · exact .inr (.inl (hsame hyear hmonth hday))
      · omega
    · omega
  · omega

theorem Date.ordinal_lt_iff : a.ordinal < b.ordinal ↔ a.Before b := by
  refine ⟨fun h => ?_, Date.ordinal_lt⟩
  rcases Date.before_or_eq a b with hbefore | rfl | hafter
  · exact hbefore
  · omega
  · have hlt := Date.ordinal_lt hafter
    omega

theorem Date.ordinal_inj : a.ordinal = b.ordinal ↔ a = b := by
  refine ⟨fun h => ?_, congrArg Date.ordinal⟩
  rcases Date.before_or_eq a b with hbefore | heq | hafter
  · have hlt := Date.ordinal_lt hbefore
    omega
  · exact heq
  · have hlt := Date.ordinal_lt hafter
    omega

theorem isoDate_inj : isoDate a = isoDate b ↔ a = b := by
  refine ⟨fun h => ?_, congrArg isoDate⟩
  have hread : some (a, 0 % 1440) = some (b, 0 % 1440) := by
    rw [← strptimeDateClock_canonical, h, strptimeDateClock_canonical]
  exact congrArg Prod.fst (Option.some.inj hread)

end Ordinals

section FixedWidth

theorem append_lt_append {a b x y : Text} (hlength : a.length = b.length)
    (h : a < b ∨ (a = b ∧ x < y)) : a ++ x < b ++ y := by
  induction a generalizing b with
  | nil =>
    obtain rfl := List.length_eq_zero_iff.mp hlength.symm
    rcases h with hlt | ⟨-, hlt⟩
    · exact absurd hlt (List.lt_irrefl _)
    · exact hlt
  | cons c a ih =>
    obtain ⟨d, b, rfl⟩ := List.exists_cons_of_length_eq_add_one hlength.symm
    have hlength' : a.length = b.length := by simpa using hlength
    simp only [List.cons_append, List.cons_lt_cons_iff, List.cons.injEq] at h ⊢
    rcases h with (hlt | ⟨rfl, hlt⟩) | ⟨⟨rfl, rfl⟩, hlt⟩
    · exact .inl hlt
    · exact .inr ⟨rfl, ih hlength' (.inl hlt)⟩
    · exact .inr ⟨rfl, ih hlength' (.inr ⟨rfl, hlt⟩)⟩

theorem digitChar_lt {a b : Nat} (h : a < b) (hb : b < 10) : Nat.digitChar a < Nat.digitChar b := by
  interval_cases b <;> interval_cases a <;> decide

theorem pad2_lt {a b : Nat} (h : a < b) (hb : b < 100) : pad2 a < pad2 b := by
  unfold pad2
  simp only [List.cons_lt_cons_iff]
  by_cases htens : a / 10 = b / 10
  · exact .inr ⟨by rw [htens], .inl (digitChar_lt (by omega) (by omega))⟩
  · exact .inl (digitChar_lt (by omega) (by omega))

/-- One more field in front. -/
theorem pad2_append_lt {a b : Nat} {x y : Text} (hb : b < 100) (h : a < b ∨ (a = b ∧ x < y)) :
    pad2 a ++ x < pad2 b ++ y := by
  have hlength : (pad2 a).length = (pad2 b).length := rfl
  rcases h with hlt | ⟨rfl, hlt⟩
  · exact append_lt_append hlength (.inl (pad2_lt hlt hb))
  · exact append_lt_append hlength (.inr ⟨rfl, hlt⟩)

theorem pad4_append_lt {a b : Nat} {x y : Text} (hb : b < 10000) (h : a < b ∨ (a = b ∧ x < y)) :
    pad4 a ++ x < pad4 b ++ y := by
  unfold pad4
  rw [List.append_assoc, List.append_assoc]
  apply pad2_append_lt (by omega)
  rcases h with hlt | ⟨rfl, hlt⟩
  · by_cases hhigh : a / 100 = b / 100
    · exact .inr ⟨hhigh, pad2_append_lt (by omega) (.inl (by omega))⟩
    · exact .inl (by omega)
  · exact .inr ⟨rfl, pad2_append_lt (by omega) (.inr ⟨rfl, hlt⟩)⟩

end FixedWidth

structure LocalTime where
  date : Date
  /-- microseconds after midnight -/
  micros : Nat
  bound : micros < 86400000000
deriving DecidableEq

namespace LocalTime

/-- On the scale of microseconds on which the day with ordinal `n` starts at `n` times the
length of a day. -/
def instant (t : LocalTime) : Nat := t.date.ordinal * 86400000000 + t.micros

def secondOfDay (t : LocalTime) : Nat := t.micros / 1000000

/-- The second in which `t` lies. -/
def epoch (t : LocalTime) : Nat := t.date.ordinal * 86400 + t.secondOfDay

/-- `strftime("%Y%m%d_%H%M%S")` in the years 1000 to 9999 -/
def compact (t : LocalTime) : Text :=
  pad4 t.date.year ++ (pad2 t.date.month ++ (pad2 t.date.day ++ ('_' ::
    (pad2 (t.secondOfDay / 3600) ++
      (pad2 (t.secondOfDay / 60 % 60) ++ pad2 (t.secondOfDay % 60))))))

variable {t u : LocalTime}

theorem secondOfDay_lt (t : LocalTime) : t.secondOfDay < 86400 := by
  have hbound := t.bound
  unfold secondOfDay
  omega

theorem epoch_eq (t : LocalTime) : t.epoch = t.instant / 1000000 := by
  have hday : t.date.ordinal * 86400000000 = 1000000 * (t.date.ordinal * 86400) := by ring
  rw [instant, hday, Nat.mul_add_div (by norm_num)]
  rfl

theorem epoch_le (h : t.instant ≤ u.instant) : t.epoch ≤ u.epoch := by
  rw [epoch_eq, epoch_eq]
  exact Nat.div_le_div_right h

theorem epoch_lt_iff : t.epoch < u.epoch ↔
    t.date.Before u.date ∨ (t.date = u.date ∧ t.secondOfDay < u.secondOfDay) := by
  have ht := t.secondOfDay_lt
  have hu := u.secondOfDay_lt
  have hbefore := Date.ordinal_lt_iff (a := t.date) (b := u.date)
  have hsame := Date.ordinal_inj (a := t.date) (b := u.date)
  rw [← hbefore, ← hsame]
  unfold epoch
  omega

theorem clock_lt {m n : Nat} (h : m < n) (hn : n < 86400) :
    pad2 (m / 3600) ++ (pad2 (m / 60 % 60) ++ pad2 (m % 60)) <
      pad2 (n / 3600) ++ (pad2 (n / 60 % 60) ++ pad2 (n % 60)) := by
  by_cases hhour : m / 3600 = n / 3600
  · refine pad2_append_lt (by omega) (.inr ⟨hhour, ?_⟩)
    by_cases hminute : m / 60 % 60 = n / 60 % 60
    · exact pad2_append_lt (by omega) (.inr ⟨hminute, pad2_lt (by omega) (by omega)⟩)
    · exact pad2_append_lt (by omega) (.inl (by omega))
  · exact pad2_append_lt (by omega) (.inl (by omega))

/-- The texts of times have the order of their seconds. -/
theorem compact_lt (h : t.epoch < u.epoch) : t.compact < u.compact := by
  obtain ⟨⟨-, hyear⟩, ⟨-, hmonth⟩, -, hday⟩ := u.date.valid
  have hday31 := daysInMonth_le u.date.year u.date.month
  unfold compact
  rcases epoch_lt_iff.mp h with (hlt | ⟨heq, hlt | ⟨heq', hlt⟩⟩) | ⟨hdate, hlt⟩
  · exact pad4_append_lt (by omega) (.inl hlt)
  · exact pad4_append_lt (by omega) (.inr ⟨heq, pad2_append_lt (by omega) (.inl hlt)⟩)
  · refine pad4_append_lt (by omega) (.inr ⟨heq, pad2_append_lt (by omega) (.inr ⟨heq', ?_⟩)⟩)
    exact pad2_append_lt (by omega) (.inl hlt)
  · rw [hdate]
    refine pad4_append_lt (by omega) (.inr ⟨rfl, pad2_append_lt (by omega) (.inr ⟨rfl, ?_⟩)⟩)
    refine pad2_append_lt (by omega) (.inr ⟨rfl, ?_⟩)
    rw [List.cons_lt_cons_iff]
    exact .inr ⟨rfl, clock_lt hlt u.secondOfDay_lt⟩

theorem compact_eq (h : t.epoch = u.epoch) : t.compact = u.compact := by
  have ht := t.secondOfDay_lt
  have hu := u.secondOfDay_lt
  unfold epoch at h
  have hsecond : t.secondOfDay = u.secondOfDay := by omega
  have hdate : t.date = u.date := Date.ordinal_inj.mp (by omega)
  unfold compact
  rw [hdate, hsecond]

theorem compact_inj : t.compact = u.compact ↔ t.epoch = u.epoch := by
  refine ⟨fun h => ?_, compact_eq⟩
  rcases Nat.lt_trichotomy t.epoch u.epoch with hlt | heq | hgt
  · exact absurd (compact_lt hlt) (h ▸ List.lt_irrefl _)
  · exact heq
  · exact absurd (compact_lt hgt) (h ▸ List.lt_irrefl _)

end LocalTime

end Calendar
