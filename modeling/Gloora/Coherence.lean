import Gloora.Ownership

/-!
# Whether a row tells one story

The start, the end, the labels and the services of a row are computed along different ways.
They agree exactly for one service.
-/

namespace Gloora
set_option autoImplicit false

open PyText Calendar Keyed Runs

/-- Minute `x` of the day is one of the `n` minutes from clock time `t`. -/
def InArc (t n x : Nat) : Prop := (x + 1440 - t) % 1440 < n

/-- The fields of a row describe one booking of `k` services. -/
structure Coherent (k : Nat) (r : Slot) : Prop where
  services : (splitComma r.selectedServices).length = k
  labels : ∃ m, rowLabels r.slotTime = slotLabels m k ∧ r.startTime = hhmm m ∧
    r.endTime = hhmm (m + 30 * k)
  interval : ∃ s e, strptimeClock r.startTime = some s ∧ strptimeClock r.endTime = some e ∧
    ∀ x < 1440, InArc s ((e + 1440 - s) % 1440) x ↔
      ∃ l ∈ rowLabels r.slotTime, ∃ t, strptimeClock l = some t ∧ InArc t 30 x

section Booking
variable {env : Env} {db : Db} {s : Session} {salonId : Nat} {form : BookForm} {salon : Salon}
  {booking : PendingBooking} (userId : Nat) (username : Text)

theorem Books.fields (h : Books env db s salonId form salon booking) :
    booking.selectedServices.length ≠ 0 ∧ ∃ m < 1440,
      rowLabels (some booking.slotTime) = slotLabels m booking.selectedServices.length ∧
      booking.startTime = hhmm m ∧ booking.endTime = hhmm (m + 30) := by
  obtain ⟨date, t, m, haccepted⟩ := checkBooking_ok.mp h.checked
  have hlabels := haccepted.labels
  have hne := haccepted.length_ne
  rw [haccepted.booking] at hlabels ⊢
  exact ⟨hne, m, strptimeClock_lt haccepted.clock, hlabels, rfl, rfl⟩

/-- The second half hour of a booking would lie outside the stored interval. -/
theorem one_of_coherent (h : Books env db s salonId form salon booking)
    (hcoherent : Coherent booking.selectedServices.length (paidRow userId username booking)) :
    booking.selectedServices.length = 1 := by
  obtain ⟨hne, m, hm, hlabels, hstart, hstop⟩ := h.fields
  obtain ⟨start, stop, hstart', hstop', hinterval⟩ := hcoherent.interval
  change strptimeClock booking.startTime = some start at hstart'
  change strptimeClock booking.endTime = some stop at hstop'
  rw [hstart, strptimeClock_hhmm, Option.some.injEq] at hstart'
  rw [hstop, strptimeClock_hhmm, Option.some.injEq] at hstop'
  by_contra hk
  have hlabel : hhmm (m + 30) ∈ rowLabels (some booking.slotTime) := by
    rw [hlabels]
    exact mem_slotLabels.mpr ⟨1, by omega, rfl⟩
  have hin : InArc ((m + 30) % 1440) 30 ((m + 30) % 1440) := by
    have hx : (m + 30) % 1440 < 1440 := by omega
    unfold InArc
    omega
  have hsecond := (hinterval ((m + 30) % 1440) (by omega)).mpr
    ⟨_, hlabel, _, strptimeClock_hhmm _, hin⟩
  unfold InArc at hsecond
  omega

theorem coherent_of_one (h : Books env db s salonId form salon booking)
    (hone : booking.selectedServices.length = 1)
    (hcomma : ∀ text ∈ booking.selectedServices, ',' ∉ text) :
    Coherent booking.selectedServices.length (paidRow userId username booking) := by
  obtain ⟨-, m, hm, hlabels, hstart, hstop⟩ := h.fields
  have hsingle : rowLabels (paidRow userId username booking).slotTime = [hhmm m] := by
    change rowLabels (some booking.slotTime) = _
    rw [hlabels, hone, slotLabels_succ]
    rfl
  change (paidRow userId username booking).startTime = hhmm m at hstart
  change (paidRow userId username booking).endTime = hhmm (m + 30) at hstop
  refine ⟨?_, ⟨m, hlabels, hstart, ?_⟩, m, (m + 30) % 1440, ?_, ?_, ?_⟩
  · obtain ⟨text, htext⟩ := List.length_eq_one_iff.mp hone
    have hfree : ',' ∉ text := hcomma text (by simp [htext])
    have hjoin : (paidRow userId username booking).selectedServices = text := by
      simp [paidRow, htext, joinComma]
    rw [hone, hjoin]
    exact length_splitComma_eq_one.mpr hfree
  · rw [hstop, hone]
  · rw [hstart, strptimeClock_hhmm, Nat.mod_eq_of_lt hm]
  · rw [hstop, strptimeClock_hhmm]
  · intro x hx
    simp only [hsingle, List.mem_singleton, exists_eq_left, strptimeClock_hhmm,
      Option.some.injEq, exists_eq_left', InArc]
    omega

theorem comma_free_of_coherent (hone : booking.selectedServices.length = 1)
    (hcoherent : Coherent booking.selectedServices.length (paidRow userId username booking)) :
    ∀ text ∈ booking.selectedServices, ',' ∉ text := by
  obtain ⟨text, htext⟩ := List.length_eq_one_iff.mp hone
  have hservices := hcoherent.services
  rw [hone, length_splitComma_eq_one] at hservices
  simpa [paidRow, htext, joinComma] using hservices

theorem coherent_iff (h : Books env db s salonId form salon booking) :
    Coherent booking.selectedServices.length (paidRow userId username booking) ↔
      booking.selectedServices.length = 1 ∧ ∀ text ∈ booking.selectedServices, ',' ∉ text := by
  constructor
  · intro hcoherent
    have hone := one_of_coherent userId username h hcoherent
    exact ⟨hone, comma_free_of_coherent userId username hone hcoherent⟩
  · rintro ⟨hone, hcomma⟩
    exact coherent_of_one userId username h hone hcomma

end Booking

/-- The booking was stored by one of the requests, and `r` is the row it becomes. -/
def Produced (evs : List Event) (booking : PendingBooking) (r : Slot) : Prop :=
  Stored evs booking ∧ r = paidRow r.userId r.username booking

section Runs
variable {P : Platform} {evs : List Event} {σ : Sys} {id : Nat} {r : Slot}
  {booking : PendingBooking}

theorem exists_produced (h : Run (Step P) Sys.init evs σ) (hr : (id, r) ∈ σ.db.slots.rows) :
    ∃ booking, Produced evs booking r := by
  obtain ⟨booking, hrequested, hrow⟩ := (recorded h).rows id r hr
  exact ⟨booking, hrequested.stored, hrow⟩

/-- Every row comes from a booking, and is coherent when that has one service without a comma. -/
theorem rows_coherent_iff (h : Run (Step P) Sys.init evs σ) (hr : (id, r) ∈ σ.db.slots.rows) :
    (∃ booking, Produced evs booking r) ∧
    ∀ booking, Produced evs booking r →
      (Coherent booking.selectedServices.length r ↔
        booking.selectedServices.length = 1 ∧ ∀ text ∈ booking.selectedServices, ',' ∉ text) := by
  refine ⟨exists_produced h hr, fun booking hproduced => ?_⟩
  obtain ⟨_, _, _, _, _, _, hbooks⟩ := hproduced.1.books h
  rw [hproduced.2]
  exact coherent_iff _ _ hbooks

end Runs

theorem rows_coherent_iff_visit : ∃ r booking, Produced visit.events booking r ∧
    Coherent booking.selectedServices.length r := by
  have hrow : (visit.final.db.slots.find? 1).isSome := by decide +kernel
  have hone : ∀ e ∈ visit.events, ∀ booking ∈ e.booked?,
      booking.selectedServices.length = 1 ∧
        ∀ text ∈ booking.selectedServices, ',' ∉ text := by decide +kernel
  obtain ⟨r, hr⟩ := Option.isSome_iff_exists.mp hrow
  obtain ⟨⟨booking, hproduced⟩, hiff⟩ :=
    rows_coherent_iff visit.steps (Table.find?_eq_some.mp hr)
  obtain ⟨e, he, hbooked⟩ := hproduced.1
  exact ⟨r, booking, hproduced, (hiff booking hproduced).mpr (hone e he booking hbooked)⟩

def twoServices : Script where
  inputs := opening "1" ++ [sends 1 (book 1 "2030-01-01" "10:00" ["1", "2"] "150"),
    opensPayment 1 "o1", sends 1 (payFor "o1")]
  served := by decide +kernel

/-- Their row ends after the first of them. -/
theorem two_services_incoherent : ¬ ∀ (P : Platform) (evs : List Event) (σ : Sys),
    Run (Step P) Sys.init evs σ → ∀ id r booking, (id, r) ∈ σ.db.slots.rows →
      Produced evs booking r → Coherent booking.selectedServices.length r := by
  intro h
  have hrow : (twoServices.final.db.slots.find? 1).isSome := by decide +kernel
  have htwo : ∀ e ∈ twoServices.events, ∀ booking ∈ e.booked?,
      booking.selectedServices.length = 2 := by decide +kernel
  obtain ⟨r, hr⟩ := Option.isSome_iff_exists.mp hrow
  have hmem := Table.find?_eq_some.mp hr
  obtain ⟨booking, hproduced⟩ := exists_produced twoServices.steps hmem
  obtain ⟨_, _, _, _, _, _, hbooks⟩ := hproduced.1.books twoServices.steps
  obtain ⟨e, he, hbooked⟩ := hproduced.1
  have hcoherent := h plain _ _ twoServices.steps 1 r booking hmem hproduced
  rw [hproduced.2] at hcoherent
  have hone := one_of_coherent _ _ hbooks hcoherent
  rw [htwo e he booking hbooked] at hone
  exact absurd hone (by decide)

end Gloora
