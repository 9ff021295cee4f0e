import Mathlib.Data.List.Perm.Subperm
import Gloora.TimeFields
import Gloora.Access

/-!
# The availability check

POST /book-slot counts each label over all paid rows. The counts do not depend on the order of
the rows and never rise when rows go away.
-/

namespace Gloora
set_option autoImplicit false

open PyText Binary64 Calendar Keyed

/-- A form that passes every check of POST /book-slot in front of the paid rows; the time alone
is read as minute `m`. -/
structure Checked (now : Nat) (form : BookForm) (date : Date) (t m : Nat) : Prop
    extends Readable now form date t where
  clock : strptimeClock (form.slotTime.getD []) = some m
  fits : SlotsFit m form.selectedServices.length
  closing : (m + 30) % 1440 ≤ 1320

/-- The pending booking of a form that starts at minute `m`. -/
def bookingOf (salonId : Nat) (form : BookForm) (m : Nat) : PendingBooking where
  salonId := salonId
  slotDate := form.slotDate.getD []
  slotTime := joinComma (slotLabels m form.selectedServices.length)
  startTime := hhmm m
  endTime := hhmm (m + 30)
  selectedServices := form.selectedServices
  serviceTotal := totalPriceField form.totalPrice
  platformFee := form.selectedServices.length * 10

/-- How often a label occurs among the labels of all rows. -/
def occurrences (rows : List (Option Text)) (l : Text) : Nat := (rows.flatMap rowLabels).count l

section Counts
variable {rows rows' : List (Option Text)} {l : Text}

theorem occurrences_cons (row : Option Text) (rows : List (Option Text)) (l : Text) :
    occurrences (row :: rows) l = (rowLabels row).count l + occurrences rows l := by
  rw [occurrences, List.flatMap_cons, List.count_append, occurrences]

theorem occurrences_perm (h : rows.Perm rows') : occurrences rows l = occurrences rows' l :=
  (h.flatMap_right rowLabels).count_eq l

theorem occurrences_sublist (h : rows.Sublist rows') :
    occurrences rows l ≤ occurrences rows' l := by
  induction h with
  | slnil => exact Nat.le_refl _
  | cons row _ ih =>
    rw [occurrences_cons]
    omega
  | cons_cons row _ ih =>
    rw [occurrences_cons, occurrences_cons]
    omega

/-- Neither the order of the rows nor removing some of them raises a count. -/
theorem occurrences_subperm (h : rows.Subperm rows') :
    occurrences rows l ≤ occurrences rows' l := by
  obtain ⟨kept, hperm, hsublist⟩ := h
  rw [← occurrences_perm hperm]
  exact occurrences_sublist hsublist

/-- A missing or zero `worker_count` counts as one. -/
theorem effectiveWorkers_eq (workerCount : Option Int) :
    effectiveWorkers workerCount = max (workerCount.getD 1) 1 := by
  unfold effectiveWorkers
  split
  · rfl
  · rfl
  · rfl

end Counts

section Checks
variable {now salonId : Nat} {workerCount : Option Int} {paid : Text → List (Option Text)}
  {form : BookForm} {booking : PendingBooking} {date : Date} {t m : Nat}

theorem Accepted.checked (h : Accepted now salonId workerCount paid form booking date t m) :
    Checked now form date t m where
  dated := h.dated.1
  timed := h.dated.2
  services := h.services
  positive := h.positive
  start := h.start
  future := h.future
  clock := h.clock
  fits := h.representable
  closing := h.closing

theorem Checked.accepted (h : Checked now form date t m)
    (hfree : ∀ l ∈ slotLabels m form.selectedServices.length,
      (occurrences (paid (form.slotDate.getD [])) l : Int) < effectiveWorkers workerCount) :
    Accepted now salonId workerCount paid form (bookingOf salonId form m) date t m where
  services := h.services
  positive := h.positive
  start := h.start
  future := h.future
  clock := h.clock
  representable := h.fits
  closing := h.closing
  free := hfree
  booking := rfl

/-- What a form that passed the checks before is accepted for depends on the counts alone. -/
theorem Checked.ok_iff (h : Checked now form date t m) :
    checkBooking now salonId workerCount paid form = .ok booking ↔
      booking = bookingOf salonId form m ∧
      ∀ l ∈ slotLabels m form.selectedServices.length,
        (occurrences (paid (form.slotDate.getD [])) l : Int) < max (workerCount.getD 1) 1 := by
  rw [← effectiveWorkers_eq]
  constructor
  · intro hok
    obtain ⟨date', t', m', haccepted⟩ := checkBooking_ok.mp hok
    obtain rfl := Option.some.inj (h.clock.symm.trans haccepted.clock)
    exact ⟨haccepted.booking, haccepted.free⟩
  · rintro ⟨rfl, hfree⟩
    exact (h.accepted hfree).checkBooking

/-- Fewer rows in any order and more workers leave an accepted form accepted. -/
theorem checkBooking_mono {workerCount' : Option Int} {paid' : Text → List (Option Text)}
    (hrows : (paid' (form.slotDate.getD [])).Subperm (paid (form.slotDate.getD [])))
    (hworkers : workerCount.getD 1 ≤ workerCount'.getD 1)
    (hok : checkBooking now salonId workerCount paid form = .ok booking) :
    checkBooking now salonId workerCount' paid' form = .ok booking := by
  obtain ⟨date, t, m, haccepted⟩ := checkBooking_ok.mp hok
  obtain ⟨hbooking, hfree⟩ := haccepted.checked.ok_iff.mp hok
  refine haccepted.checked.ok_iff.mpr ⟨hbooking, fun l hl => ?_⟩
  have hcount := occurrences_subperm (l := l) hrows
  have hlt := hfree l hl
  omega

end Checks

/-- The check accepts exactly when each label is taken less often than there are workers; fewer
rows in any order, or more workers, leave an accepted request accepted with the same booking. -/
theorem availability_exact {now : Nat} {form : BookForm} {date : Date} {t m : Nat}
    (h : Checked now form date t m) (salonId : Nat) (workerCount : Option Int)
    (paid : Text → List (Option Text)) :
    ((∃ booking, checkBooking now salonId workerCount paid form = .ok booking) ↔
      ∀ l ∈ slotLabels m form.selectedServices.length,
        (occurrences (paid (form.slotDate.getD [])) l : Int) < max (workerCount.getD 1) 1) ∧
    ∀ (workerCount' : Option Int) (paid' : Text → List (Option Text)) (booking : PendingBooking),
      (paid' (form.slotDate.getD [])).Subperm (paid (form.slotDate.getD [])) →
      workerCount.getD 1 ≤ workerCount'.getD 1 →
      checkBooking now salonId workerCount paid form = .ok booking →
      checkBooking now salonId workerCount' paid' form = .ok booking := by
  constructor
  · constructor
    · rintro ⟨booking, hok⟩
      exact (h.ok_iff.mp hok).2
    · intro hfree
      exact ⟨_, h.ok_iff.mpr ⟨rfl, hfree⟩⟩
  · intro workerCount' paid' booking hrows hworkers hok
    exact checkBooking_mono hrows hworkers hok

theorem asksAt_checked : Checked 0 (asksAt "10:00") ⟨2030, 1, 1, by decide⟩ 600 600 where
  dated := by simp [asksAt]
  timed := by simp [asksAt]
  services := by simp [asksAt]
  positive := by decide +kernel
  start := by decide +kernel
  future := Nat.zero_le _
  clock := by decide +kernel
  fits := by
    intro i hi
    have hi' : i < 1 := hi
    unfold clockInstant endOfTime
    omega
  closing := by omega

/-- A row with two labels, one without a time, an empty one and one with a label twice. -/
def busyRows : List (Option Text) :=
  [some "10:00,10:30".toList, none, some [], some "10:00,10:00".toList]

/-- Ten o'clock is taken three times; four workers have a place left, and so have five with some
of the rows in another order. -/
theorem availability_exact_busy : ∃ booking,
    checkBooking 0 1 (some 4) (fun _ => busyRows) (asksAt "10:00") = .ok booking ∧
    checkBooking 0 1 (some 5) (fun _ => [some "10:00,10:00".toList, none]) (asksAt "10:00") =
      .ok booking := by
  obtain ⟨hiff, hmono⟩ := availability_exact asksAt_checked 1 (some 4) fun _ => busyRows
  have hfree : ((slotLabels 600 1).all fun l =>
      decide ((occurrences busyRows l : Int) < max ((some (4 : Int)).getD 1) 1)) = true := by
    decide +kernel
  obtain ⟨booking, hok⟩ := hiff.mpr fun l hl => of_decide_eq_true (List.all_eq_true.mp hfree l hl)
  have hrows : [some "10:00,10:00".toList, none].Subperm busyRows :=
    List.isSubperm_iff.mp (by decide +kernel)
  exact ⟨booking, hok, hmono (some 5) (fun _ => [some "10:00,10:00".toList, none]) booking hrows
    (by decide) hok⟩

section Deletion
variable {env : Env} {db db' : Db} {s : Session} {salonId : Nat} {form : BookForm}
  {booking : PendingBooking} {w : Write}

theorem paidSlotTimes_subperm (h : db'.slots.rows.Sublist db.slots.rows) (slotDate : Text) :
    (db'.paidSlotTimes salonId slotDate).Subperm (db.paidSlotTimes salonId slotDate) :=
  ((Table.select_sublist h _).map Slot.slotTime).subperm

theorem exec_delete_salon {salon : Salon} (hw : w.isDelete = true)
    (hother : w ≠ .deleteSalon salonId) (h : db.exec w = some db')
    (hsalon : db.salons.find? salonId = some salon) : db'.salons.find? salonId = some salon := by
  rcases exec_cases h with rfl | rfl
  · exact hsalon
  cases w with
  | deleteSalon id =>
    have hid : salonId ≠ id := by
      rintro rfl
      exact hother rfl
    rw [Table.find?_eq_some] at hsalon ⊢
    exact Table.mem_delete.mpr ⟨hsalon, by simpa using hid⟩
  | deleteUser id => exact hsalon
  | deleteService id => exact hsalon
  | deleteBooking id => exact hsalon
  | _ => cases hw

/-- Whatever the admin deletes, other than the salon itself, a request that would be accepted
still is, and the same booking is stored. -/
theorem stores_after_delete
    (hstores : (bookSlotForSalon env db s salonId (some form)).Stores salonId booking)
    (hw : w.isDelete = true) (hother : w ≠ .deleteSalon salonId) (h : db.exec w = some db') :
    (bookSlotForSalon env db' s salonId (some form)).Stores salonId booking := by
  obtain ⟨salon, hbooks⟩ := stores_iff.mp hstores
  have hslots : db'.slots.rows.Sublist db.slots.rows := by
    apply exec_slots h
    rintro r rfl
    cases hw
  refine stores_iff.mpr ⟨salon, hbooks.username, hbooks.userId, ?_, ?_⟩
  · exact exec_delete_salon hw hother h hbooks.row
  · exact checkBooking_mono (paidSlotTimes_subperm hslots _) (Int.le_refl _) hbooks.checked

end Deletion

end Gloora
