import Mathlib.Tactic.IntervalCases
import Gloora.Lib.Matching
import Gloora.Lib.PyText

/-!
# Dates and clock times

The part of Python's `datetime` that reads and writes `%Y-%m-%d` and `%H:%M`. A `Date` is
a proleptic Gregorian date of the years 1 to 9999 and is valid by construction. A time of
the day is its number of minutes after midnight.
-/

namespace Calendar
set_option autoImplicit false

open Matching PyText

def isLeap (y : Nat) : Bool := y % 4 == 0 && (y % 100 != 0 || y % 400 == 0)

def daysInMonth (y m : Nat) : Nat :=
  if m = 2 then if isLeap y then 29 else 28
  else if m = 4 ∨ m = 6 ∨ m = 9 ∨ m = 11 then 30
  else 31

def IsDate (y m d : Nat) : Prop :=
  (1 ≤ y ∧ y ≤ 9999) ∧ (1 ≤ m ∧ m ≤ 12) ∧ 1 ≤ d ∧ d ≤ daysInMonth y m

instance (y m d : Nat) : Decidable (IsDate y m d) := by unfold IsDate; infer_instance

structure Date where
  year : Nat
  month : Nat
  day : Nat
  valid : IsDate year month day
deriving DecidableEq

/-- `datetime(y, m, d)`; `none` is a `ValueError`. -/
def Date.mk? (y m d : Nat) : Option Date :=
  if h : IsDate y m d then some ⟨y, m, d, h⟩ else none

@[simp] theorem Date.mk?_self (d : Date) : Date.mk? d.year d.month d.day = some d := by
  simp [Date.mk?, d.valid]

def daysBeforeYear (y : Nat) : Nat :=
  (y - 1) * 365 + (y - 1) / 4 - (y - 1) / 100 + (y - 1) / 400

def daysBeforeMonth (y m : Nat) : Nat :=
  ((List.range (m - 1)).map fun i => daysInMonth y (i + 1)).sum

/-- `toordinal()`: day 1 is the first of January of year 1. -/
def Date.ordinal (d : Date) : Nat :=
  daysBeforeYear d.year + daysBeforeMonth d.year d.month + d.day

/-- The first minute after the last representable one. -/
def endOfTime : Nat := (3652059 + 1) * 1440

/-- `t + timedelta(minutes=k)`; `none` is an `OverflowError`. -/
def addMinutes (t k : Nat) : Option Nat := if t + k < endOfTime then some (t + k) else none

/-- The instant `strptime` returns for the clock time `m` when the format has no date. -/
def clockInstant (m : Nat) : Nat := 693596 * 1440 + m

section Writing

def pad2 (n : Nat) : Text := [Nat.digitChar (n / 10 % 10), Nat.digitChar (n % 10)]

def pad4 (n : Nat) : Text := pad2 (n / 100) ++ pad2 (n % 100)

/-- `strftime("%H:%M")` -/
def hhmm (t : Nat) : Text := pad2 (t % 1440 / 60) ++ ':' :: pad2 (t % 60)

/-- `strftime("%Y-%m-%d")` -/
def isoDate (d : Date) : Text := pad4 d.year ++ '-' :: pad2 d.month ++ '-' :: pad2 d.day

end Writing

section Reading

def digit : Matcher Nat := char digitVal?

/-- `[lo-hi]`, a range of ASCII digits -/
def digitIn (lo hi : Char) : Matcher Nat :=
  char fun c => if lo ≤ c ∧ c ≤ hi then some (c.toNat - '0'.toNat) else none

/-- The two digit number that two one-digit matchers read. -/
def pair (tens units : Matcher Nat) : Matcher Nat :=
  andThen tens fun a => andThen units fun b => done (10 * a + b)

/-- `%Y`: `\d\d\d\d` -/
def yearField : Matcher Nat :=
  andThen (pair digit digit) fun a => andThen (pair digit digit) fun b => done (100 * a + b)

/-- `%m`: `1[0-2]|0[1-9]|[1-9]` -/
def monthField : Matcher Nat :=
  orElse (pair (digitIn '1' '1') (digitIn '0' '2'))
    (orElse (pair (digitIn '0' '0') (digitIn '1' '9')) (digitIn '1' '9'))

/-- `%d`: `3[0-1]|[1-2]\d|0[1-9]|[1-9]| [1-9]` -/
def dayField : Matcher Nat :=
  orElse (pair (digitIn '3' '3') (digitIn '0' '1'))
    (orElse (pair (digitIn '1' '2') digit)
      (orElse (pair (digitIn '0' '0') (digitIn '1' '9'))
        (orElse (digitIn '1' '9') (andThen (lit ' ') fun _ => digitIn '1' '9'))))

/-- `%H`: `2[0-3]|[0-1]\d|\d` -/
def hourField : Matcher Nat :=
  orElse (pair (digitIn '2' '2') (digitIn '0' '3'))
    (orElse (pair (digitIn '0' '1') digit) digit)

/-- `%M`: `[0-5]\d|\d` -/
def minuteField : Matcher Nat := orElse (pair (digitIn '0' '5') digit) digit

def clockField : Matcher Nat :=
  andThen hourField fun h => andThen (lit ':') fun _ => andThen minuteField fun m =>
    done (60 * h + m)

/-- `%Y-%m-%d %H:%M`, where the blank matches any run of white space -/
def dateClockField : Matcher (Nat × Nat × Nat × Nat) :=
  andThen yearField fun y => andThen (lit '-') fun _ =>
  andThen monthField fun m => andThen (lit '-') fun _ =>
  andThen dayField fun d => andThen (plus isSpace) fun _ =>
  andThen clockField fun t => done (y, m, d, t)

/-- `datetime.strptime(s, "%H:%M")`: the minutes after midnight. -/
def strptimeClock (s : Text) : Option Nat := fullMatch clockField s

/-- `datetime.strptime(s, "%Y-%m-%d %H:%M")` -/
def strptimeDateClock (s : Text) : Option (Date × Nat) := do
  let (y, m, d, t) ← fullMatch dateClockField s
  let date ← Date.mk? y m d
  pure (date, t)

end Reading

section RoundTrip

theorem digitVal?_digitChar {d : Nat} (h : d < 10) : digitVal? (Nat.digitChar d) = some d := by
  interval_cases d <;> decide

theorem digit_digitChar {d : Nat} (h : d < 10) (rest : Text) :
    digit (Nat.digitChar d :: rest) = [(d, rest)] := by
  simp [digit, char_cons, digitVal?_digitChar h]

theorem pair_digit_pad2 {n : Nat} (h : n < 100) (rest : Text) :
    pair digit digit (pad2 n ++ rest) = [(n, rest)] := by
  have htens := digit_digitChar (d := n / 10 % 10) (by omega) (Nat.digitChar (n % 10) :: rest)
  have hunits := digit_digitChar (d := n % 10) (by omega) rest
  have hn : 10 * (n / 10 % 10) + n % 10 = n := by omega
  rw [pair, pad2, List.cons_append, List.cons_append, List.nil_append, andThen_single htens,
    andThen_single hunits, hn, done_apply]

theorem yearField_pad4 {y : Nat} (h : y < 10000) (rest : Text) :
    yearField (pad4 y ++ rest) = [(y, rest)] := by
  have hhigh := pair_digit_pad2 (n := y / 100) (by omega) (pad2 (y % 100) ++ rest)
  have hlow := pair_digit_pad2 (n := y % 100) (by omega) rest
  have hy : 100 * (y / 100) + y % 100 = y := by omega
  rw [yearField, pad4, List.append_assoc, andThen_single hhigh, andThen_single hlow, hy,
    done_apply]

/-- The shorter alternatives of `%m` die at the `-` that follows. -/
theorem monthField_pad2 {m : Nat} (h1 : 1 ≤ m) (h2 : m ≤ 12) (rest : Text) :
    ∃ others : List (Nat × Text),
      monthField (pad2 m ++ '-' :: rest) = (m, '-' :: rest) :: others ∧
      ∀ r ∈ others, lit '-' r.2 = [] := by
  interval_cases m
  all_goals first
    | exact ⟨[], rfl, by simp⟩
    | exact ⟨_, rfl, by intro r hr; obtain rfl := List.mem_singleton.mp hr; rfl⟩

/-- The shorter alternatives of `%d` die at the white space that follows. -/
theorem dayField_pad2 {d : Nat} (h1 : 1 ≤ d) (h2 : d ≤ 31) (rest : Text) :
    ∃ others : List (Nat × Text),
      dayField (pad2 d ++ ' ' :: rest) = (d, ' ' :: rest) :: others ∧
      ∀ r ∈ others, plus isSpace r.2 = [] := by
  interval_cases d
  all_goals first
    | exact ⟨[], rfl, by simp⟩
    | exact ⟨_, rfl, by intro r hr; obtain rfl := List.mem_singleton.mp hr; rfl⟩

theorem hourField_pad2 {h : Nat} (hh : h < 24) (rest : Text) :
    ∃ others : List (Nat × Text),
      hourField (pad2 h ++ ':' :: rest) = (h, ':' :: rest) :: others ∧
      ∀ r ∈ others, lit ':' r.2 = [] := by
  interval_cases h
  all_goals exact ⟨_, rfl, by intro r hr; obtain rfl := List.mem_singleton.mp hr; rfl⟩

theorem minuteField_pad2 {m : Nat} (h : m < 60) :
    ∃ others : List (Nat × Text), minuteField (pad2 m) = (m, []) :: others := by
  interval_cases m
  all_goals exact ⟨_, rfl⟩

theorem clockField_hhmm (t : Nat) :
    ∃ others : List (Nat × Text), clockField (hhmm t) = (t % 1440, []) :: others := by
  obtain ⟨dead, hhour, hdead⟩ := hourField_pad2 (h := t % 1440 / 60) (by omega) (pad2 (t % 60))
  obtain ⟨others, hminute⟩ := minuteField_pad2 (m := t % 60) (by omega)
  have ht : 60 * (t % 1440 / 60) + t % 60 = t % 1440 := by omega
  refine ⟨others.flatMap fun r => done (60 * (t % 1440 / 60) + r.1) r.2, ?_⟩
  rw [clockField, hhmm, andThen_first hhour _ fun r hr => andThen_nil (hdead r hr) _,
    andThen_single (lit_self _ _)]
  simp [andThen, hminute, ht]

theorem hhmm_head (t : Nat) : ∃ c cs, hhmm t = c :: cs ∧ isSpace c = false := by
  refine ⟨_, _, rfl, ?_⟩
  have h : t % 1440 / 60 / 10 % 10 < 10 := by omega
  generalize t % 1440 / 60 / 10 % 10 = d at h
  interval_cases d <;> decide

theorem dateClockField_canonical (d : Date) (t : Nat) :
    ∃ others : List ((Nat × Nat × Nat × Nat) × Text),
      dateClockField (isoDate d ++ ' ' :: hhmm t) =
        ((d.year, d.month, d.day, t % 1440), []) :: others := by
  obtain ⟨⟨-, hy⟩, ⟨hm1, hm2⟩, hd1, hd2⟩ := d.valid
  have hd31 : d.day ≤ 31 := by
    unfold daysInMonth at hd2
    split at hd2
    · split at hd2 <;> omega
    · split at hd2 <;> omega
  obtain ⟨c, cs, hc, hspace⟩ := hhmm_head t
  obtain ⟨deadM, hmonth, hdeadM⟩ :=
    monthField_pad2 hm1 hm2 (pad2 d.day ++ ' ' :: hhmm t)
  obtain ⟨deadD, hday, hdeadD⟩ := dayField_pad2 hd1 hd31 (hhmm t)
  obtain ⟨others, hclock⟩ := clockField_hhmm t
  have hyear := yearField_pad4 (y := d.year) (by omega)
    ('-' :: pad2 d.month ++ '-' :: pad2 d.day ++ ' ' :: hhmm t)
  refine ⟨others.flatMap fun r => done (d.year, d.month, d.day, r.1) r.2, ?_⟩
  have hplus : plus isSpace (' ' :: hhmm t) = [((), hhmm t)] := by
    rw [hc]
    exact plus_single (by decide) hspace
  simp only [isoDate, List.append_assoc, List.cons_append] at hyear ⊢
  rw [dateClockField, andThen_single hyear, andThen_single (lit_self _ _),
    andThen_first hmonth _ fun r hr => andThen_nil (hdeadM r hr) _, andThen_single (lit_self _ _),
    andThen_first hday _ fun r hr => andThen_nil (hdeadD r hr) _, andThen_single hplus]
  simp [andThen, hclock]

theorem strptimeClock_hhmm (t : Nat) : strptimeClock (hhmm t) = some (t % 1440) := by
  obtain ⟨others, h⟩ := clockField_hhmm t
  exact fullMatch_of_head h

/-- Reading a canonically written date and clock time returns them. -/
theorem strptimeDateClock_canonical (d : Date) (t : Nat) :
    strptimeDateClock (isoDate d ++ ' ' :: hhmm t) = some (d, t % 1440) := by
  obtain ⟨others, h⟩ := dateClockField_canonical d t
  simp [strptimeDateClock, fullMatch_of_head h]

/-- The text of a clock time depends on the minute of the day alone, and determines it. -/
theorem hhmm_eq_iff {t u : Nat} : hhmm t = hhmm u ↔ t % 1440 = u % 1440 := by
  constructor
  · intro h
    have hread : some (t % 1440) = some (u % 1440) := by
      rw [← strptimeClock_hhmm, h, strptimeClock_hhmm]
    exact Option.some.inj hread
  · intro h
    have hmin : t % 60 = u % 60 := by omega
    rw [hhmm, hhmm, h, hmin]

theorem hhmm_clockInstant (m k : Nat) : hhmm (clockInstant m + k) = hhmm (m + k) := by
  rw [hhmm_eq_iff, clockInstant]
  omega

theorem digitChar_ne {d : Nat} (h : d < 10) {c : Char} (hc : digitVal? c = none) :
    Nat.digitChar d ≠ c := by
  rintro rfl
  simp [digitVal?_digitChar h] at hc

theorem not_mem_pad2 (n : Nat) {c : Char} (hc : digitVal? c = none) : c ∉ pad2 n := by
  have htens := digitChar_ne (d := n / 10 % 10) (by omega) hc
  have hunits := digitChar_ne (d := n % 10) (by omega) hc
  simp [pad2, htens.symm, hunits.symm]

theorem comma_not_mem_hhmm (t : Nat) : ',' ∉ hhmm t := by
  have hcomma : digitVal? ',' = none := by decide
  simp [hhmm, not_mem_pad2 _ hcomma]

end RoundTrip

section Order

/-- Comparing the texts of clock times with the text of 22:00. -/
theorem closing_lt_hhmm (t : Nat) : "22:00".toList < hhmm t ↔ 1320 < t % 1440 := by
  have hday : ∀ m < 1440, "22:00".toList < hhmm m ↔ 1320 < m := by decide +kernel
  have hmod : hhmm t = hhmm (t % 1440) := hhmm_eq_iff.mpr (by omega)
  rw [hmod]
  exact hday _ (by omega)

end Order

section Bounds

theorem digitVal?_lt {c : Char} {d : Nat} (h : digitVal? c = some d) : d < 10 := by
  obtain ⟨z, hz, rfl⟩ := Option.map_eq_some_iff.mp h
  have hrange := List.find?_some hz
  simp only [Bool.and_eq_true, decide_eq_true_eq] at hrange
  omega

theorem yields_digit : Yields digit fun d => d ≤ 9 :=
  yields_char fun _ _ h => Nat.le_of_lt_succ (digitVal?_lt h)

theorem yields_digitIn (lo hi : Char) : Yields (digitIn lo hi) fun d => d ≤ hi.toNat - '0'.toNat := by
  apply yields_char
  intro c a h
  split at h
  · rename_i hc
    have hle : c.toNat ≤ hi.toNat := hc.2
    obtain rfl := Option.some.inj h
    omega
  · simp at h

theorem yields_pair {m n : Matcher Nat} {a b : Nat} (hm : Yields m fun d => d ≤ a)
    (hn : Yields n fun d => d ≤ b) : Yields (pair m n) fun d => d ≤ 10 * a + b :=
  yields_andThen hm fun x hx => yields_andThen hn fun y hy => yields_done (by omega)

theorem yields_hourField : Yields hourField fun h => h ≤ 23 := by
  refine yields_orElse (yields_pair (yields_digitIn _ _) (yields_digitIn _ _))
    (yields_orElse ?_ ?_)
  · exact (yields_pair (yields_digitIn _ _) yields_digit).mono fun a ha => by
      have h1 : '1'.toNat - '0'.toNat = 1 := rfl
      omega
  · exact yields_digit.mono fun a ha => by omega

theorem yields_minuteField : Yields minuteField fun m => m ≤ 59 := by
  apply yields_orElse (yields_pair (yields_digitIn _ _) yields_digit)
  exact yields_digit.mono fun a ha => by omega

theorem strptimeClock_lt {s : Text} {m : Nat} (h : strptimeClock s = some m) : m < 1440 := by
  apply fullMatch_yields (P := fun m => m < 1440) ?_ h
  refine yields_andThen yields_hourField fun a ha => ?_
  refine yields_andThen (yields_true _) fun _ _ => ?_
  exact yields_andThen yields_minuteField fun b hb => yields_done (by omega)

end Bounds

end Calendar
