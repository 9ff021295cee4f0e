import Gloora.Lib.Calendar
import Gloora.Lib.Scanning

/-!
# Exchanging the clock time behind a date

In `%Y-%m-%d %H:%M` only the blank matches white space behind the day, and the clock time
has none. So the last white space of an accepted text is where the clock time begins.
-/

namespace Calendar
set_option autoImplicit false

open Matching PyText

theorem digit_not_space {c : Char} {d : Nat} (h : digitVal? c = some d) : ¬ isSpace c = true := by
  have htable : ∀ z ∈ zeroCodes, ∀ i < 10, spaceCodes.contains (z + i) = false := by
    decide +kernel
  obtain ⟨z, hz, -⟩ := Option.map_eq_some_iff.mp h
  have hrange := List.find?_some hz
  simp only [Bool.and_eq_true, decide_eq_true_eq] at hrange
  have hnot := htable z (List.mem_of_find?_eq_some hz) (c.toNat - z) (by omega)
  rw [Nat.add_sub_cancel' hrange.1] at hnot
  rw [isSpace, hnot]
  exact Bool.false_ne_true

theorem local_pair {tens units : Matcher Nat} (htens : Local tens) (hunits : Local units) :
    Local (pair tens units) :=
  local_andThen htens fun _ => local_andThen hunits fun _ => local_done _

theorem reads_pair {tens units : Matcher Nat} {p : Char → Prop} (htens : Reads tens p)
    (hunits : Reads units p) : Reads (pair tens units) p :=
  reads_andThen htens fun _ => reads_andThen hunits fun _ => reads_done _

theorem digitVal?_ascii {c : Char} (hlo : 48 ≤ c.toNat) (hhi : c.toNat ≤ 57) :
    digitVal? c ≠ none := by
  rw [digitVal?]
  interval_cases c.toNat <;> decide

section Reads
variable {p : Char → Prop} (hdigit : ∀ c d, digitVal? c = some d → p c)
include hdigit

theorem reads_digit : Reads digit p := reads_char hdigit

theorem reads_digitIn {lo hi : Char} (hlo : '0' ≤ lo) (hhi : hi ≤ '9') :
    Reads (digitIn lo hi) p := by
  apply reads_char
  intro c a h
  split at h
  · rename_i hc
    obtain ⟨d, hd⟩ := Option.ne_none_iff_exists'.mp
      (digitVal?_ascii (Nat.le_trans hlo hc.1) (Nat.le_trans hc.2 hhi))
    exact hdigit c d hd
  · cases h

theorem reads_hourField : Reads hourField p := by
  have hin : ∀ lo hi, '0' ≤ lo ∧ hi ≤ '9' → Reads (digitIn lo hi) p :=
    fun lo hi h => reads_digitIn hdigit h.1 h.2
  exact reads_orElse (reads_pair (hin '2' '2' (by decide)) (hin '0' '3' (by decide)))
    (reads_orElse (reads_pair (hin '0' '1' (by decide)) (reads_digit hdigit)) (reads_digit hdigit))

theorem reads_minuteField : Reads minuteField p :=
  reads_orElse (reads_pair (reads_digitIn hdigit (by decide) (by decide)) (reads_digit hdigit))
    (reads_digit hdigit)

theorem reads_clockField (hcolon : p ':') : Reads clockField p :=
  reads_andThen (reads_hourField hdigit) fun _ => reads_andThen (reads_lit hcolon) fun _ =>
    reads_andThen (reads_minuteField hdigit) fun _ => reads_done _

end Reads

theorem local_digit : Local digit := local_char _

theorem local_digitIn (lo hi : Char) : Local (digitIn lo hi) := local_char _

theorem local_lit (c : Char) : Local (lit c) := local_char _

theorem local_yearField : Local yearField :=
  local_andThen (local_pair local_digit local_digit) fun _ =>
    local_andThen (local_pair local_digit local_digit) fun _ => local_done _

theorem local_monthField : Local monthField :=
  local_orElse (local_pair (local_digitIn _ _) (local_digitIn _ _))
    (local_orElse (local_pair (local_digitIn _ _) (local_digitIn _ _)) (local_digitIn _ _))

theorem local_dayField : Local dayField :=
  local_orElse (local_pair (local_digitIn _ _) (local_digitIn _ _))
    (local_orElse (local_pair (local_digitIn _ _) local_digit)
      (local_orElse (local_pair (local_digitIn _ _) (local_digitIn _ _))
        (local_orElse (local_digitIn _ _)
          (local_andThen (local_lit _) fun _ => local_digitIn _ _))))

theorem local_hourField : Local hourField :=
  local_orElse (local_pair (local_digitIn _ _) (local_digitIn _ _))
    (local_orElse (local_pair (local_digitIn _ _) local_digit) local_digit)

theorem local_minuteField : Local minuteField :=
  local_orElse (local_pair (local_digitIn _ _) local_digit) local_digit

theorem local_clockField : Local clockField :=
  local_andThen local_hourField fun _ => local_andThen (local_lit _) fun _ =>
    local_andThen local_minuteField fun _ => local_done _

/-- The part of `%Y-%m-%d %H:%M` up to the white space. -/
def datePrefix : Matcher (Nat × Nat × Nat) :=
  andThen yearField fun y => andThen (lit '-') fun _ =>
  andThen monthField fun m => andThen (lit '-') fun _ =>
  andThen dayField fun d => andThen (plus isSpace) fun _ => done (y, m, d)

theorem dateClockField_eq :
    dateClockField =
      followed datePrefix clockField fun date t => (date.1, date.2.1, date.2.2, t) := by
  simp only [dateClockField, followed, datePrefix, andThen_assoc, done_andThen]

theorem local_datePrefix : Local datePrefix :=
  local_andThen local_yearField fun _ => local_andThen (local_lit _) fun _ =>
  local_andThen local_monthField fun _ => local_andThen (local_lit _) fun _ =>
  local_andThen local_dayField fun _ => local_andThen (local_plus _) fun _ => local_done _

theorem ends_datePrefix : Ends datePrefix fun c => isSpace c = true :=
  ends_andThen local_yearField fun _ => ends_andThen (local_lit _) fun _ =>
  ends_andThen local_monthField fun _ => ends_andThen (local_lit _) fun _ =>
  ends_andThen local_dayField fun _ => ends_andThen_done _ (ends_plus _)

/-- Behind a date text, a clock time counts for what it is worth alone, and any other can
take its place. -/
theorem strptimeDateClock_swap {d s s' : Text} {date : Date} {t m m' : Nat}
    (h : strptimeDateClock (d ++ ' ' :: s) = some (date, t)) (hs : strptimeClock s = some m)
    (hs' : strptimeClock s' = some m') :
    t = m ∧ strptimeDateClock (d ++ ' ' :: s') = some (date, m') := by
  unfold strptimeDateClock at h ⊢
  rw [dateClockField_eq] at h ⊢
  obtain ⟨found, hfound, hdate⟩ := Option.bind_eq_some_iff.mp h
  obtain ⟨a, rfl, hswap⟩ := followed_swap local_datePrefix ends_datePrefix local_clockField
    (reads_clockField (fun _ _ => digit_not_space) (by decide)) (by decide) hs hs' hfound
  obtain ⟨date', hvalid, hpure⟩ := Option.bind_eq_some_iff.mp hdate
  obtain ⟨rfl, rfl⟩ := Prod.mk.inj (Option.some.inj hpure)
  rw [hswap]
  simp [hvalid]

theorem not_isSpace_of_strptimeClock {s : Text} {m : Nat} (h : strptimeClock s = some m) :
    ∀ c ∈ s, ¬ isSpace c = true :=
  (reads_clockField (fun _ _ => digit_not_space) (by decide)).of_fullMatch h

/-- A clock time without white space behind a date counts for what it is worth alone. -/
theorem strptimeClock_of_dateClock {d s : Text} {date : Date} {t : Nat}
    (h : strptimeDateClock (d ++ ' ' :: s) = some (date, t)) (hs : ∀ c ∈ s, ¬ isSpace c = true) :
    strptimeClock s = some t := by
  unfold strptimeDateClock at h
  rw [dateClockField_eq] at h
  obtain ⟨found, hfound, hdate⟩ := Option.bind_eq_some_iff.mp h
  obtain ⟨a, b, rfl, hclock⟩ := followed_found local_datePrefix ends_datePrefix local_clockField
    (reads_clockField (fun _ _ => digit_not_space) (by decide)) (by decide) hs hfound
  obtain ⟨date', -, hpure⟩ := Option.bind_eq_some_iff.mp hdate
  obtain ⟨-, rfl⟩ := Prod.mk.inj (Option.some.inj hpure)
  exact hclock

section Reads
variable {p : Char → Prop} (hdigit : ∀ c d, digitVal? c = some d → p c)
include hdigit

theorem reads_yearField : Reads yearField p := by
  have hpair := reads_pair (reads_digit hdigit) (reads_digit hdigit)
  exact reads_andThen hpair fun _ => reads_andThen hpair fun _ => reads_done _

theorem reads_monthField : Reads monthField p := by
  have hin : ∀ lo hi, '0' ≤ lo ∧ hi ≤ '9' → Reads (digitIn lo hi) p :=
    fun lo hi h => reads_digitIn hdigit h.1 h.2
  exact reads_orElse (reads_pair (hin '1' '1' (by decide)) (hin '0' '2' (by decide)))
    (reads_orElse (reads_pair (hin '0' '0' (by decide)) (hin '1' '9' (by decide)))
      (hin '1' '9' (by decide)))

theorem reads_dayField (hblank : p ' ') : Reads dayField p := by
  have hin : ∀ lo hi, '0' ≤ lo ∧ hi ≤ '9' → Reads (digitIn lo hi) p :=
    fun lo hi h => reads_digitIn hdigit h.1 h.2
  exact reads_orElse (reads_pair (hin '3' '3' (by decide)) (hin '0' '1' (by decide)))
    (reads_orElse (reads_pair (hin '1' '2' (by decide)) (reads_digit hdigit))
      (reads_orElse (reads_pair (hin '0' '0' (by decide)) (hin '1' '9' (by decide)))
        (reads_orElse (hin '1' '9' (by decide))
          (reads_andThen (reads_lit hblank) fun _ => hin '1' '9' (by decide)))))

theorem reads_datePrefix (hdash : p '-') (hspace : ∀ c, isSpace c = true → p c) :
    Reads datePrefix p :=
  reads_andThen (reads_yearField hdigit) fun _ => reads_andThen (reads_lit hdash) fun _ =>
  reads_andThen (reads_monthField hdigit) fun _ => reads_andThen (reads_lit hdash) fun _ =>
  reads_andThen (reads_dayField hdigit (hspace ' ' (by decide))) fun _ =>
  reads_andThen (reads_plus hspace) fun _ => reads_done _

end Reads

/-- A character that can stand in no field. -/
theorem strptimeDateClock_foreign {s : Text} {c : Char} (hc : c ∈ s) (hdigit : digitVal? c = none)
    (hspace : isSpace c = false) (hdash : c ≠ '-') (hcolon : c ≠ ':') :
    strptimeDateClock s = none := by
  have hreads : Reads dateClockField fun d => d ≠ c := by
    have hdigits : ∀ d n, digitVal? d = some n → d ≠ c := by
      rintro d n hd rfl
      rw [hdigit] at hd
      cases hd
    rw [dateClockField_eq]
    apply reads_andThen (reads_datePrefix hdigits hdash.symm ?_)
    · intro _
      exact reads_andThen (reads_clockField hdigits hcolon.symm) fun _ => reads_done _
    · rintro d hd rfl
      rw [hspace] at hd
      cases hd
  unfold strptimeDateClock
  cases hmatch : fullMatch dateClockField s with
  | none => rfl
  | some found => exact absurd rfl (hreads.of_fullMatch hmatch c hc)

end Calendar
