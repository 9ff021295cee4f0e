import Gloora.Capacity

/-!
# How many bookings a minute holds

A row occupies the half hours of its labels on the day its date denotes. The check of
POST /book-slot compares texts, so it protects the minutes of the calendar as long as half
hours overlap only when date and label are the same text.
-/

namespace Gloora
set_option autoImplicit false

open PyText Calendar Keyed Runs

/-- The first minute of a label on a date, counted from the start of the calendar. -/
def startsAt (slotDate label : Text) : Option Nat := do
  let date ← dateOf slotDate
  let m ← strptimeClock label
  pure (date.ordinal * 1440 + m)

def covers (slotDate label : Text) (T : Nat) : Bool :=
  (startsAt slotDate label).any fun t => t ≤ T && T < t + 30

def Slot.occupies (T : Nat) (r : Slot) : Bool :=
  (rowLabels r.slotTime).any fun l => covers r.slotDate l T

/-- The number of paid bookings of a salon that occupy a minute. -/
def busyCount (db : Db) (salonId T : Nat) : Nat :=
  (db.slots.select fun r => r.paidAt salonId && r.occupies T).length

def Overlap (date l date' l' : Text) : Prop :=
  ∃ t ∈ startsAt date l, ∃ t' ∈ startsAt date' l', t < t' + 30 ∧ t' < t + 30

instance (date l date' l' : Text) : Decidable (Overlap date l date' l') := by
  unfold Overlap
  infer_instance

theorem overlap_of_covers {date l date' l' : Text} {T : Nat} (h : covers date l T = true)
    (h' : covers date' l' T = true) : Overlap date l date' l' := by
  obtain ⟨t, ht, hT⟩ := (Option.any_eq_true _ _).mp h
  obtain ⟨t', ht', hT'⟩ := (Option.any_eq_true _ _).mp h'
  simp only [Bool.and_eq_true, decide_eq_true_eq] at hT hT'
  exact ⟨t, ht, t', ht', by omega, by omega⟩

/-- What a stored booking overlaps at the salon has its date and its label. -/
def Aligned (salonId : Nat) (e : Event) : Prop :=
  ∀ booking ∈ e.booked?, booking.salonId = salonId → ∀ r ∈ e.before.slots.rows,
    r.2.paidAt salonId = true → ∀ l ∈ rowLabels r.2.slotTime,
    ∀ l' ∈ rowLabels (some booking.slotTime), Overlap r.2.slotDate l booking.slotDate l' →
      r.2.slotDate = booking.slotDate ∧ l = l'

instance (salonId : Nat) (e : Event) : Decidable (Aligned salonId e) := by
  unfold Aligned
  infer_instance

/-- A POST /book-slot for the salon, or a payment that inserts a row for it. -/
def Event.concerns (salonId : Nat) (e : Event) : Bool :=
  (match e.request with
    | .bookSlotForSalon id (some _) => id == salonId
    | _ => false) || e.paid?.any fun r => r.salonId == salonId

/-- A booking that is paid was stored by the last request that concerned its salon. -/
def PaidAtOnce (salonId : Nat) (pre : List Event) (e : Event) : Prop :=
  ∀ booking ∈ e.cookie.pendingBooking, e.paid?.isSome → booking.salonId = salonId →
    Since (fun x => x.booked? = some booking) (fun x => x.concerns salonId = false) pre

instance (salonId : Nat) (pre : List Event) (e : Event) :
    Decidable (PaidAtOnce salonId pre e) := by
  unfold PaidAtOnce
  infer_instance

section Runs
variable {P : Platform} {σ σ' : Sys} {evs : List Event} {salonId : Nat} {W : Int}

theorem count_unconcerned (h : Run (Step P) σ evs σ')
    (hquiet : ∀ x ∈ evs, x.concerns salonId = false) (T : Nat) :
    busyCount σ'.db salonId T ≤ busyCount σ.db salonId T := by
  have hcount := count_between h fun r => r.paidAt salonId && r.occupies T
  have hnone : evs.countP (fun x => x.paid?.any fun r => r.paidAt salonId && r.occupies T) = 0 := by
    rw [List.countP_eq_zero]
    intro x hx
    have hx' := hquiet x hx
    simp only [Event.concerns, Bool.or_eq_false_iff] at hx'
    cases hpaid : x.paid? with
    | none => simp
    | some r =>
      have hother : (r.salonId == salonId) = false := by simpa [hpaid] using hx'.2
      simp [Slot.paidAt, hother]
  rw [hnone] at hcount
  exact hcount

/-- All paid bookings at a minute of an aligned booking share its label there. -/
theorem busy_le_paid {e : Event} {booking : PendingBooking} {T : Nat} {l' : Text}
    (haligned : Aligned salonId e) (hbooked : e.booked? = some booking)
    (hsalon : booking.salonId = salonId) (hl' : l' ∈ rowLabels (some booking.slotTime))
    (hcovers : covers booking.slotDate l' T = true) :
    busyCount e.before salonId T ≤ paidCount e.before salonId booking.slotDate l' := by
  apply Table.length_select_le
  intro id r hr hq
  simp only [Bool.and_eq_true] at hq
  obtain ⟨l, hl, hcoversl⟩ := List.any_eq_true.mp hq.2
  obtain ⟨hdate, rfl⟩ : r.slotDate = booking.slotDate ∧ l = l' :=
    haligned booking hbooked hsalon (id, r) hr hq.1 l hl l' hl' (overlap_of_covers hcoversl hcovers)
  simp [Slot.takes, hq.1, hdate, hl]

/-- No minute is ever overbooked when bookings are paid at once and all are aligned. -/
theorem never_overbooked_in_time (h : Run (Step P) Sys.init evs σ)
    (hW : WorkersFixed salonId W evs) (honce : Throughout (PaidAtOnce salonId) evs)
    (haligned : ∀ e ∈ evs, Aligned salonId e) (T : Nat) :
    (busyCount σ.db salonId T : Int) ≤ max W 1 := by
  apply count_bounded h _ (by omega)
  intro pre e post t t' row hevs hpre hstep hpaid hq
  subst hevs
  change (busyCount t.db salonId T : Int) < max W 1
  obtain ⟨form, userId, username, booking, -, hpays, rfl, -⟩ := hstep.paid hpaid
  simp only [Bool.and_eq_true, Slot.paidAt, beq_iff_eq] at hq
  obtain ⟨⟨hsalon, -⟩, hoccupies⟩ := hq
  obtain ⟨l, hl, hcovers⟩ := List.any_eq_true.mp hoccupies
  obtain ⟨before, e₀, between, rfl, hbooked, hquiet⟩ :=
    honce pre e post rfl booking hpays.pending (by rw [hpaid]; rfl) hsalon
  obtain ⟨u, u', -, hbook, hbetween⟩ := hpre.at_event
  have hfree := booked_free hbook hbooked
    (fun r hr hid => hW e₀ (by simp) r hr (hid.trans hsalon)) hl
  have hbusy := busy_le_paid (haligned e₀ (by simp)) hbooked hsalon hl hcovers
  have hcount := count_unconcerned hbetween hquiet T
  obtain ⟨_, _, _, -, -, -, hdb⟩ := hbook.booked hbooked
  rw [hbook.db, hdb] at hcount
  change booking.salonId = salonId at hsalon
  rw [hsalon] at hfree
  omega

end Runs

def inTurn (workers date : String) : List Input :=
  firstBooking workers ++ [opensPayment 1 "o1", sends 1 (payFor "o1"),
    sends 2 (book 1 date "10:00" ["1"] "100"), opensPayment 2 "o2", sends 2 (payFor "o2")]

/-- Ten o'clock on the first of January 2030. -/
def tenOnNewYear : Nat := 741078 * 1440 + 600

def sameDate : Script where
  inputs := inTurn "2" "2030-01-01"
  served := by decide +kernel

theorem never_overbooked_in_time_sameDate :
    (busyCount sameDate.final.db 1 tenOnNewYear : Int) ≤ max 2 1 := by
  have hW : WorkersFixed 1 2 sameDate.events := by decide +kernel
  have honce : Throughout (PaidAtOnce 1) sameDate.events := by decide +kernel
  exact never_overbooked_in_time sameDate.steps hW honce (by decide +kernel) _

/-- The dates 2030-01-01 and 2030-1-1 are one day and two texts. -/
def unpaddedDate : Script where
  inputs := inTurn "1" "2030-1-1"
  served := by decide +kernel

theorem unpadded_date_overbooked : ¬ ∀ (P : Platform) (evs : List Event) (σ : Sys)
    (salonId : Nat) (W : Int), (∀ b, Run (CurrentStep P b) Sys.init evs σ) →
    WorkersFixed salonId W evs → Throughout (PaidAtOnce salonId) evs →
    ∀ T, (busyCount σ.db salonId T : Int) ≤ max W 1 := by
  intro h
  have hle := h plain _ _ 1 1 unpaddedDate.run (by decide +kernel) (by decide +kernel)
    tenOnNewYear
  exact absurd hle (by decide +kernel)

end Gloora
