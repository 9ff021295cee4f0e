import Gloora.Lib.Moments
import Gloora.Play
import Gloora.Recording

/-!
# Bookings and the clock

POST /book-slot refuses a start before the present. The row is written when the payment
arrives, and no one looks at the clock again.
-/

namespace Gloora
set_option autoImplicit false

open PyText Calendar Keyed Runs

/-- The instant of a date and a clock time, in the format POST /book-slot reads. -/
def momentOf (slotDate clock : Text) : Option Nat :=
  (strptimeDateClock (slotDate ++ ' ' :: clock)).map fun start => instantOf start.1 start.2

/-- Date and clock time denote an instant that is not over. -/
def Upcoming (now : Nat) (slotDate clock : Text) : Prop :=
  ∃ instant ∈ momentOf slotDate clock, now ≤ instant

instance (now : Nat) (slotDate clock : Text) : Decidable (Upcoming now slotDate clock) := by
  unfold Upcoming
  infer_instance

/-- Every paid row an event inserts starts no earlier than the event. -/
def Event.InTime (e : Event) : Prop :=
  ∀ row ∈ e.paid?, Upcoming e.env.now row.slotDate row.startTime

instance (e : Event) : Decidable e.InTime := by
  unfold Event.InTime
  infer_instance

/-- A signed payment finds the start of its pending booking in the past. -/
def Event.PaysLate (P : Platform) (e : Event) : Prop :=
  ∃ form userId username booking instant, Payable P e form userId username booking ∧
    momentOf booking.slotDate booking.startTime = some instant ∧ instant < e.env.now

section Booking
variable {P : Platform} {σ σ' : Sys} {evs : List Event} {e : Event} {booking : PendingBooking}

/-- The clock time the row will start at is the one the form asked for. -/
theorem Accepted.upcoming {now salonId : Nat} {workerCount : Option Int}
    {paid : Text → List (Option Text)} {form : BookForm} {date : Date} {t m : Nat}
    (h : Accepted now salonId workerCount paid form booking date t m) :
    Upcoming now booking.slotDate booking.startTime := by
  obtain ⟨rfl, hstart⟩ := strptimeDateClock_swap h.start h.clock (strptimeClock_hhmm t)
  have hmod : t % 1440 = t := Nat.mod_eq_of_lt (strptimeClock_lt h.clock)
  rw [hmod] at hstart
  rw [h.booking]
  exact ⟨instantOf date t, by simp [momentOf, hstart], h.future⟩

theorem Stored.denotes (h : Run (Step P) Sys.init evs σ) (hstored : Stored evs booking) :
    ∃ instant, momentOf booking.slotDate booking.startTime = some instant := by
  obtain ⟨_, _, _, _, _, _, hbooks⟩ := hstored.books h
  obtain ⟨date, t, m, haccepted⟩ := checkBooking_ok.mp hbooks.checked
  obtain ⟨instant, hinstant, -⟩ := haccepted.upcoming
  exact ⟨instant, hinstant⟩

theorem Payable.denotes {form : PaymentForm} {userId : Nat} {username : Text}
    (h : Run (Step P) Sys.init evs σ) (hstep : Step P σ e σ')
    (hpayable : Payable P e form userId username booking) :
    ∃ instant, momentOf booking.slotDate booking.startTime = some instant := by
  obtain ⟨id, -, hrequested⟩ := ((recorded h).presented hstep).pending booking hpayable.pending
  exact hrequested.stored.denotes h

theorem Step.inTime_iff (h : Run (Step P) Sys.init evs σ) (hstep : Step P σ e σ') :
    e.InTime ↔ ¬ e.PaysLate P := by
  constructor
  · rintro hin ⟨form, userId, username, booking, instant, hpayable, hinstant, hlate⟩
    obtain ⟨instant', hinstant', hle⟩ :=
      hin _ (hstep.paid_iff.mpr ⟨form, userId, username, booking, hpayable, rfl⟩)
    obtain rfl : instant = instant' := Option.some.inj (hinstant.symm.trans hinstant')
    omega
  · intro hnot row hpaid
    obtain ⟨form, userId, username, booking, hpayable, rfl⟩ := hstep.paid_iff.mp hpaid
    obtain ⟨instant, hinstant⟩ := hpayable.denotes h hstep
    refine ⟨instant, hinstant, ?_⟩
    by_contra hlate
    exact hnot ⟨form, userId, username, booking, instant, hpayable, hinstant,
      Nat.lt_of_not_le hlate⟩

/-- Rows are written in time exactly when no payment comes after the start of the pending
booking. -/
theorem rows_in_time (h : Run (Step P) Sys.init evs σ) :
    (∀ e ∈ evs, e.InTime) ↔ ∀ e ∈ evs, ¬ e.PaysLate P := by
  apply forall₂_congr
  intro e he
  obtain ⟨_, _, _, _, -, hpre, hstep, -⟩ := h.at_mem he
  exact hstep.inTime_iff hpre

end Booking

def paymentAt (now : Nat) : List Input :=
  firstBooking "1" ++ [opensPayment 1 "o1", ⟨1, calmly now "o1", payFor "o1"⟩]

def paidInTime : Script where
  inputs := paymentAt 1
  served := by decide +kernel

theorem rows_in_time_first : (paidInTime.events.countP fun e => e.paid?.isSome) = 1 ∧
    ∀ e ∈ paidInTime.events, ¬ e.PaysLate plain :=
  ⟨by decide +kernel, (rows_in_time paidInTime.steps).mp (by decide +kernel)⟩

/-- The payment page stays open until the day after the booking. -/
def paidNextDay : Script where
  inputs := paymentAt ((741079 * 1440 + 600) * 60000000)
  served := by decide +kernel

theorem row_paid_late : ¬ ∀ (P : Platform) (evs : List Event) (σ : Sys),
    Run (Step P) Sys.init evs σ → evs.Pairwise (fun e f => e.env.now ≤ f.env.now) →
      ∀ e ∈ evs, e.InTime := by
  intro h
  have hall := h plain _ _ paidNextDay.steps (by decide +kernel)
  exact absurd hall (by decide +kernel)

end Gloora
