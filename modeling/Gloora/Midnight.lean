import Gloora.Lib.Stamps
import Gloora.Availability
import Gloora.Picking

/-!
# The two midnights of the booking page

The script takes the date of today from the UTC clock and the minutes of the day from the
local one; the template and POST /book-slot go by the local clock alone.
-/

namespace Gloora
set_option autoImplicit false

open PyText Calendar

/-- An instant on the clocks of UTC and of the place where browser and server are. -/
structure Moment where
  utcTime : LocalTime
  /-- microseconds by which the local clock is ahead -/
  offset : Int
  localTime : LocalTime
  shifted : (localTime.instant : Int) = utcTime.instant + offset

namespace Moment
variable (M : Moment)

/-- `new Date().toISOString().split("T")[0]`, which is also the `min` of the date input. -/
def todayDate : Text := isoDate M.utcTime.date

def currentMinutes : Nat := M.localTime.micros / 60000000

/-- The dates between the `min` that the script and the `max` that the template sets. -/
def Admits (date : Date) : Prop :=
  M.utcTime.date.ordinal ≤ date.ordinal ∧ date.ordinal ≤ M.localTime.date.ordinal

def page (date : Date) (workerCount : Int) : BookSlotPage :=
  BookSlotPage.loadSlotStatus
    { dateInput := isoDate date
      todayDate := M.todayDate
      currentMinutes := M.currentMinutes
      selectedServiceCount := 1 }
    (.bookedSlots [] workerCount)

def RejectsAsPast (date : Date) (time : Text) : Prop :=
  ∃ salonId workerCount paid, ∃ form : BookForm, form.slotDate = some (isoDate date) ∧
    form.slotTime = some time ∧ checkBooking M.localTime.instant salonId workerCount paid form =
      .error (.flash "You cannot book past time slots!".toList)

/-- The page and the server agree on what is past, and the current date can be chosen. -/
structure Agrees (workerCount : Int) : Prop where
  disables : ∀ date, M.Admits date → ∀ time ∈ slotTimes, ∀ m, timeToMinutes time = some m →
    instantOf date m < M.localTime.instant → (M.page date workerCount).disabled time = true
  offers : ∀ date, M.Admits date → ∀ time ∈ slotTimes,
    (M.page date workerCount).disabled time = false → ¬ M.RejectsAsPast date time
  today : M.Admits M.localTime.date

end Moment

section Page
variable {M : Moment} {date : Date} {workerCount : Int} {m : Nat} {time : Text}

theorem mem_slotTimes : time ∈ slotTimes ↔ ∃ i < 29, time = hhmm (420 + 30 * i) := by
  rw [slotTimes_eq, mem_slotLabels]

/-- Without bookings only the clock disables a slot of the grid. -/
theorem Moment.page_disabled (M : Moment) (date : Date) (workerCount : Int) (hm : m ≤ 1260) :
    (M.page date workerCount).disabled (hhmm m) =
      decide (date = M.utcTime.date ∧ m ≤ M.currentMinutes) := by
  have hinput : (isoDate date).isEmpty = false := rfl
  have hlabels : getRequiredSlots (hhmm m) 1 = [hhmm m] := by
    rw [getRequiredSlots_eq (by omega) (by omega)]
    simp [slotLabels]
  have hmod : m % 1440 = m := Nat.mod_eq_of_lt (by omega)
  have hopen : ¬ 1320 < m + 30 := by omega
  have hworkers : ¬ max (if workerCount = 0 then 1 else workerCount) 1 ≤ 0 := by omega
  simp only [Moment.page, BookSlotPage.loadSlotStatus, hinput, BookSlotPage.disabled,
    Moment.todayDate, timeToMinutes_hhmm, hmod]
  simp [hlabels, timeToMinutes_hhmm, hmod, hopen, hworkers, Tally.get, isoDate_inj]

theorem instantOf_lt_iff : instantOf date m < M.localTime.instant ↔
    (date.ordinal * 1440 + m) * 60000000 < M.localTime.date.ordinal * 86400000000 +
      M.localTime.micros := Iff.rfl

theorem past_of_rejects (h : M.RejectsAsPast date (hhmm m)) (hm : m < 1440) :
    instantOf date m < M.localTime.instant := by
  obtain ⟨salonId, workers, paid, form, hdate, htime, herror⟩ := h
  obtain ⟨refusal, hrefusal⟩ :
      ∃ refusal, Refusal.flash "You cannot book past time slots!".toList = refusal := ⟨_, rfl⟩
  have hrefused := checkBooking_error herror
  rw [hrefusal] at hrefused
  cases hrefused with
  | fields => simp at hrefusal
  | invalid => simp at hrefusal
  | past hstart hpast =>
    rw [hdate, htime, Option.getD_some, Option.getD_some, strptimeDateClock_canonical,
      Nat.mod_eq_of_lt hm] at hstart
    obtain ⟨rfl, rfl⟩ := Prod.mk.inj (Option.some.inj hstart)
    exact hpast
  | raised => cases hrefusal
  | closing => simp at hrefusal
  | taken => exact absurd (Refusal.flash.inj hrefusal).symm (unavailable_ne _ (by decide))

end Page

section Dates
variable {M : Moment} {workerCount : Int}

/-- On another day than that of UTC no slot is taken for past. -/
theorem Moment.Agrees.sameDate (h : M.Agrees workerCount) :
    M.utcTime.date = M.localTime.date := by
  by_contra hdates
  obtain ⟨hle, -⟩ := h.today
  have hne : M.utcTime.date.ordinal ≠ M.localTime.date.ordinal :=
    fun heq => hdates (Date.ordinal_inj.mp heq)
  have hbound := M.localTime.bound
  by_cases hlate : M.currentMinutes < 1260
  · -- yesterday at nine in the evening is still on offer
    have hmem : hhmm 1260 ∈ slotTimes := mem_slotTimes.mpr ⟨28, by omega, rfl⟩
    have hdisabled := h.disables M.utcTime.date ⟨Nat.le_refl _, hle⟩ _ hmem 1260
      (timeToMinutes_hhmm 1260) (instantOf_lt_iff.mpr (by omega))
    rw [M.page_disabled _ _ (by omega), decide_eq_true_eq] at hdisabled
    omega
  · -- and today at seven in the morning, once it is evening
    have hmem : hhmm 420 ∈ slotTimes := mem_slotTimes.mpr ⟨0, by omega, rfl⟩
    have hpast : instantOf M.localTime.date 420 < M.localTime.instant := by
      rw [instantOf_lt_iff]
      unfold Moment.currentMinutes at hlate
      omega
    have hdisabled := h.disables M.localTime.date h.today _ hmem 420 (timeToMinutes_hhmm 420) hpast
    rw [M.page_disabled _ _ (by omega), decide_eq_true_eq] at hdisabled
    exact hdates hdisabled.1.symm

theorem page_agrees_iff (M : Moment) (workerCount : Int) :
    M.Agrees workerCount ↔ M.utcTime.date = M.localTime.date := by
  refine ⟨Moment.Agrees.sameDate, fun hdates => ?_⟩
  have htoday : ∀ date, M.Admits date → date = M.utcTime.date := by
    rintro date ⟨hmin, hmax⟩
    rw [← hdates] at hmax
    exact Date.ordinal_inj.mp (Nat.le_antisymm hmax hmin)
  have hdisables : ∀ date, M.Admits date → ∀ m ≤ 1260, instantOf date m < M.localTime.instant →
      (M.page date workerCount).disabled (hhmm m) = true := by
    intro date hdate m hm hpast
    obtain rfl := htoday date hdate
    rw [M.page_disabled _ _ hm, decide_eq_true_eq]
    rw [instantOf_lt_iff, ← hdates] at hpast
    refine ⟨rfl, ?_⟩
    unfold Moment.currentMinutes
    omega
  refine ⟨?_, ?_, ?_⟩
  · intro date hdate time htime m hm hpast
    obtain ⟨i, hi, rfl⟩ := mem_slotTimes.mp htime
    rw [timeToMinutes_hhmm, Nat.mod_eq_of_lt (by omega)] at hm
    obtain rfl := Option.some.inj hm
    exact hdisables date hdate _ (by omega) hpast
  · intro date hdate time htime hoffered hrejected
    obtain ⟨i, hi, rfl⟩ := mem_slotTimes.mp htime
    have hdisabled := hdisables date hdate _ (by omega) (past_of_rejects hrejected (by omega))
    rw [hoffered] at hdisabled
    cases hdisabled
  · rw [Moment.Admits, hdates]
    exact ⟨Nat.le_refl _, Nat.le_refl _⟩

end Dates

/-- An hour after midnight on the second day of March 2030, five and a half hours ahead of UTC. -/
def afterMidnight : Moment where
  utcTime := ⟨⟨2030, 3, 1, by decide⟩, 70200000000, by decide⟩
  offset := 19800000000
  localTime := ⟨⟨2030, 3, 2, by decide⟩, 3600000000, by decide⟩
  shifted := by decide

theorem after_midnight_fails :
    ¬ ∀ (M : Moment) (workerCount : Int), M.Agrees workerCount := by
  intro h
  have hdisabled := (h afterMidnight 1).disables afterMidnight.utcTime.date
    ⟨by decide, by decide⟩ "10:00".toList (by decide +kernel) 600 (by decide +kernel) (by decide)
  exact absurd hdisabled (by decide +kernel)

end Gloora
