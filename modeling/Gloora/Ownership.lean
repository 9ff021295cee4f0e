import Gloora.History
import Gloora.Play

/-!
# Sessions and bookings belong to their user

What `Recorded` says about every reachable state, in one statement.
-/

namespace Gloora
set_option autoImplicit false

open PyText Keyed Runs

/-- Cookies identify one user or none, and every row of `slot_data` was requested by the user
it names, for the salon it names, under the keys both have had since. -/
theorem sessions_and_bookings_owned {P : Platform} {evs : List Event} {σ : Sys}
    (h : Run (Step P) Sys.init evs σ) :
    (∀ b, ∀ c ∈ σ.jar b, c.Whole) ∧
    (∀ b, ∀ c ∈ σ.jar b, ∀ booking, c.pendingBooking = some booking →
      ∃ id, c.userId = some id ∧ Requested evs id booking) ∧
    ∀ id r, (id, r) ∈ σ.db.slots.rows →
      (∃ u, (r.userId, u) ∈ σ.db.users.rows ∧ u.username = r.username) ∧
      σ.db.salons.HasKey r.salonId ∧
      ∃ e ∈ evs, ∃ form booking,
        e.request = .bookSlotForSalon r.salonId (some form) ∧ e.booked? = some booking ∧
        e.cookie.userId = some r.userId ∧ r = paidRow r.userId r.username booking ∧
        (∃ u, (r.userId, u) ∈ e.before.users.rows ∧ u.username = r.username) ∧
        e.before.salons.HasKey r.salonId := by
  have hrec := recorded h
  refine ⟨fun b c hc => (hrec.cookies b c hc).whole, fun b c hc => (hrec.cookies b c hc).pending,
    ?_⟩
  intro id r hr
  obtain ⟨⟨u, hu, hname⟩, hsalon⟩ := hrec.owned id r hr
  refine ⟨⟨u, hu, hname⟩, hsalon, ?_⟩
  obtain ⟨e, he, form, salon, booking, hreq, hbooked, hbooks, hid, hrow⟩ := row_requested h hr
  obtain ⟨v, hv, hname', -⟩ := (hrec.past e he).rows _ u hu (hrec.known e he _ hid)
  exact ⟨e, he, form, booking, hreq, hbooked, hid, hrow, ⟨v, hv, hname'.trans hname⟩,
    salon, Table.find?_eq_some.mp hbooks.row⟩

def visit : Script where
  inputs := firstBooking "1" ++ [opensPayment 1 "o1", sends 1 (payFor "o1")]
  served := by decide +kernel

theorem sessions_and_bookings_owned_visit : ∃ r, (1, r) ∈ visit.final.db.slots.rows ∧
    ∃ u, (r.userId, u) ∈ visit.final.db.users.rows ∧ u.username = r.username := by
  have hrow : (visit.final.db.slots.find? 1).isSome := by decide +kernel
  obtain ⟨r, hr⟩ := Option.isSome_iff_exists.mp hrow
  have hmem := Table.find?_eq_some.mp hr
  exact ⟨r, hmem, ((sessions_and_bookings_owned visit.steps).2.2 1 r hmem).1⟩

end Gloora
