import Gloora.History
import Gloora.Play

/-!
# Bookings and the working day

The closing check of POST /book-slot compares clock times, and only of the first half hour.
-/

namespace Gloora
set_option autoImplicit false

open PyText Calendar Runs

/-- `slot_time` has a half hour for each service, none twice, each begins and ends on the day
of the start, and the last one is over at 22:00. -/
structure PendingBooking.FitsDay (booking : PendingBooking) : Prop where
  count : (splitComma booking.slotTime).length = booking.selectedServices.length
  distinct : (splitComma booking.slotTime).Nodup
  sameDay : ∃ m, strptimeClock booking.startTime = some m ∧ ∀ i slot,
    (splitComma booking.slotTime)[i]? = some slot →
      strptimeClock slot = some (m + 30 * i) ∧ m + 30 * i + 30 ≤ 24 * 60
  closing : ∀ m, strptimeClock booking.startTime = some m →
    m + 30 * booking.selectedServices.length ≤ 22 * 60

/-- A start before 23:30 that leaves half an hour for each of several services by 22:00. -/
def BookForm.StartsEarly (form : BookForm) : Prop :=
  ∃ m, strptimeClock (form.slotTime.getD []) = some m ∧ m < 23 * 60 + 30 ∧
    (form.selectedServices.length = 1 ∨ m + 30 * form.selectedServices.length ≤ 22 * 60)

section Booking
variable {now salonId : Nat} {workerCount : Option Int} {paid : Text → List (Option Text)}
  {form : BookForm} {booking : PendingBooking} {date : Date} {t m : Nat}

theorem Accepted.fitsDay_iff (h : Accepted now salonId workerCount paid form booking date t m) :
    booking.FitsDay ↔ m + 30 * form.selectedServices.length ≤ 22 * 60 := by
  have hm : m < 1440 := strptimeClock_lt h.clock
  have hstart : strptimeClock booking.startTime = some m := by
    rw [h.booking, strptimeClock_hhmm, Nat.mod_eq_of_lt hm]
  have hservices : booking.selectedServices = form.selectedServices := by rw [h.booking]
  have hslots : splitComma booking.slotTime = slotLabels m form.selectedServices.length := by
    rw [h.booking]
    exact splitComma_slotLabels m h.length_ne
  constructor
  · intro hfits
    rw [← hservices]
    exact hfits.closing m hstart
  · intro hclosing
    refine ⟨?_, ?_, ⟨m, hstart, ?_⟩, ?_⟩
    · rw [hslots, hservices, slotLabels_length]
    · rw [hslots]
      exact slotLabels_nodup_iff.mpr (by omega)
    · intro i slot hslot
      rw [hslots, slotLabels, List.getElem?_map, Option.map_eq_some_iff] at hslot
      obtain ⟨j, hj, rfl⟩ := hslot
      obtain ⟨hlt, rfl⟩ := List.getElem?_eq_some_iff.mp hj
      rw [List.length_range] at hlt
      rw [List.getElem_range, strptimeClock_hhmm, Nat.mod_eq_of_lt (by omega)]
      exact ⟨rfl, by omega⟩
    · intro m' hm'
      rw [hstart] at hm'
      obtain rfl := Option.some.inj hm'
      rw [hservices]
      exact hclosing

/-- The check the server makes, against the one that is needed. -/
theorem Accepted.startsEarly_iff
    (h : Accepted now salonId workerCount paid form booking date t m) :
    form.StartsEarly ↔ m + 30 * form.selectedServices.length ≤ 22 * 60 := by
  have hm : m < 1440 := strptimeClock_lt h.clock
  have hclosing := h.closing
  have hservices := h.length_ne
  constructor
  · rintro ⟨m', hclock, hlate, hfits⟩
    rw [h.clock] at hclock
    obtain rfl := Option.some.inj hclock
    omega
  · intro hfits
    exact ⟨m, h.clock, by omega, .inr hfits⟩

end Booking

/-- A stored booking fits in the working day exactly when its start is early enough. -/
theorem booking_fits_day_iff {P : Platform} {σ σ' : Sys} {e : Event} {salonId : Nat}
    {form : BookForm} {booking : PendingBooking} (h : Step P σ e σ')
    (hreq : e.request = .bookSlotForSalon salonId (some form))
    (hbooked : e.booked? = some booking) : booking.FitsDay ↔ form.StartsEarly := by
  obtain ⟨salonId', form', salon, hreq', hbooks, -⟩ := h.booked hbooked
  obtain ⟨rfl, hform⟩ := Request.bookSlotForSalon.inj (hreq.symm.trans hreq')
  obtain rfl := Option.some.inj hform
  obtain ⟨date, t, m, haccepted⟩ := checkBooking_ok.mp hbooks.checked
  rw [haccepted.fitsDay_iff, haccepted.startsEarly_iff]

/-- A request for a time and some services, after the first salon opened. -/
def asksFor (time : String) (services : List String) : Event :=
  (play plain Sys.init (opening "1")).2.event plain
    (sends 1 (book 1 "2030-01-01" time services "100"))

theorem asksFor_step (time : String) (services : List String) :
    Step plain (play plain Sys.init (opening "1")).2 (asksFor time services)
      ((play plain Sys.init (opening "1")).2.after (asksFor time services)) :=
  step_event plain _ _

theorem booking_fits_day_iff_ten :
    ∃ booking, (asksFor "10:00" ["1", "2"]).booked? = some booking ∧ booking.FitsDay := by
  have hbooked : ((asksFor "10:00" ["1", "2"]).booked?).isSome := by decide +kernel
  obtain ⟨booking, hbooking⟩ := Option.isSome_iff_exists.mp hbooked
  have hearly : strptimeClock "10:00".toList = some 600 := by decide +kernel
  exact ⟨booking, hbooking,
    (booking_fits_day_iff (asksFor_step "10:00" ["1", "2"]) rfl hbooking).mpr
      ⟨600, hearly, by decide, .inr (by decide)⟩⟩

/-- Two services from 21:30 on end at 22:30. -/
theorem booking_past_closing : ¬ ∀ (P : Platform) (σ σ' : Sys) (e : Event)
    (booking : PendingBooking), Step P σ e σ' → e.booked? = some booking → booking.FitsDay := by
  intro h
  have hbooked : ((asksFor "21:30" ["1", "2"]).booked?).isSome := by decide +kernel
  obtain ⟨booking, hbooking⟩ := Option.isSome_iff_exists.mp hbooked
  have hstored : ∀ booking ∈ (asksFor "21:30" ["1", "2"]).booked?,
      strptimeClock booking.startTime = some 1290 ∧ booking.selectedServices.length = 2 := by
    decide +kernel
  obtain ⟨hstart, hservices⟩ := hstored booking hbooking
  have hclosing := (h plain _ _ _ booking (asksFor_step "21:30" ["1", "2"]) hbooking).closing
    1290 hstart
  rw [hservices] at hclosing
  omega

end Gloora
