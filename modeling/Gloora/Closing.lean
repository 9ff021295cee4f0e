import Gloora.Play
import Gloora.Recording

/-!
# Bookings of a closed salon

The owner turns a salon OFF with /toggle_verify, and the salon list then shows a disabled
button. The handlers that store and insert bookings never read the status.
-/

namespace Gloora
set_option autoImplicit false

open PyText Keyed Runs

def Db.closed (db : Db) (salonId : Nat) : Bool :=
  (db.salons.find? salonId).any fun salon => salon.status == "OFF".toList

namespace Event

/-- A booking is stored, or a paid row inserted, for a salon that is OFF at that moment. -/
def takesClosed (e : Event) : Bool :=
  (e.booked?.any fun booking => e.before.closed booking.salonId) ||
    e.paid?.any fun row => e.before.closed row.salonId

/-- A booking form that passes every check there is, or a signed payment for the pending
booking, reaches the server while its salon is OFF. -/
inductive MeetsClosed (P : Platform) (e : Event) : Prop where
  | books {salonId form booking} (hbookable : Bookable e salonId form booking)
      (hclosed : e.before.closed salonId = true)
  | pays {form userId username booking} (hpayable : Payable P e form userId username booking)
      (hclosed : e.before.closed booking.salonId = true)

end Event

section Steps
variable {P : Platform} {σ σ' : Sys} {e : Event}

theorem Step.takesClosed_iff (h : Step P σ e σ') :
    e.takesClosed = true ↔ e.MeetsClosed P := by
  unfold Event.takesClosed
  rw [Bool.or_eq_true, Option.any_eq_true, Option.any_eq_true]
  constructor
  · rintro (⟨booking, hbooked, hclosed⟩ | ⟨row, hpaid, hclosed⟩)
    · obtain ⟨salonId, form, hbookable⟩ := h.booked_iff.mp hbooked
      rw [hbookable.salonId_eq] at hclosed
      exact .books hbookable hclosed
    · obtain ⟨form, userId, username, booking, hpayable, rfl⟩ := h.paid_iff.mp hpaid
      exact .pays hpayable hclosed
  · rintro (⟨hbookable, hclosed⟩ | ⟨hpayable, hclosed⟩)
    · refine .inl ⟨_, h.booked_iff.mpr ⟨_, _, hbookable⟩, ?_⟩
      rwa [hbookable.salonId_eq]
    · exact .inr ⟨_, h.paid_iff.mpr ⟨_, _, _, _, hpayable, rfl⟩, hclosed⟩

/-- A run takes no booking of a closed salon exactly when none that the checks let through
comes while the salon is OFF: the status itself is not among the checks. -/
theorem closed_salon_takes_none {evs : List Event} (h : Run (Step P) Sys.init evs σ) :
    (∀ e ∈ evs, e.takesClosed = false) ↔ ∀ e ∈ evs, ¬ e.MeetsClosed P := by
  apply forall₂_congr
  intro e he
  obtain ⟨_, _, _, _, -, -, hstep, -⟩ := h.at_mem he
  rw [← hstep.takesClosed_iff, Bool.not_eq_true]

end Steps

/-- The owner closes the salon while bob is still looking at its booking page. -/
def bookedClosed : Script where
  inputs := opening "1" ++ [sends 1 (.toggleVerify 1 (some "1234".toList)),
    sends 2 (book 1 "2030-01-01" "10:00" ["1"] "100"), opensPayment 2 "o1",
    sends 2 (payFor "o1")]
  served := by decide +kernel

theorem closed_salon_booked : ¬ ∀ (P : Platform) (evs : List Event) (σ : Sys),
    Run (Step P) Sys.init evs σ → ∀ e ∈ evs, e.takesClosed = false := by
  intro h
  exact absurd (h plain _ _ bookedClosed.steps) (by decide +kernel)

def closedUnbooked : Script where
  inputs := firstBooking "1" ++ [opensPayment 1 "o1", sends 1 (payFor "o1"),
    sends 1 (.toggleVerify 1 (some "1234".toList)),
    sends 2 (book 1 "2030-01-01" "10:00" ["1"] "100")]
  served := by decide +kernel

/-- The slot of the last request was taken before the salon closed. -/
theorem closed_salon_takes_none_taken :
    (closedUnbooked.events.countP fun e => e.paid?.isSome) = 1 ∧
      ∀ e ∈ closedUnbooked.events, ¬ e.MeetsClosed plain :=
  ⟨by decide +kernel, (closed_salon_takes_none closedUnbooked.steps).mp (by decide +kernel)⟩

end Gloora
