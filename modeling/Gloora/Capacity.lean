import Gloora.Payments

/-!
# How many bookings a slot holds

The check of POST /book-slot counts labels in the rows paid so far, and the row that uses a
place is inserted by a later request. `booked_free` says what the check establishes, and
`count_between` what the requests in between can do to it.
-/

namespace Gloora
set_option autoImplicit false

open PyText Calendar Keyed Runs

section Counting

def Slot.paidAt (salonId : Nat) (r : Slot) : Bool :=
  r.salonId == salonId && r.paymentStatus == "paid".toList

/-- A paid row of the salon that names the label on the date. -/
def Slot.takes (salonId : Nat) (date label : Text) (r : Slot) : Bool :=
  r.paidAt salonId && r.slotDate == date && (rowLabels r.slotTime).contains label

def paidCount (db : Db) (salonId : Nat) (date label : Text) : Nat :=
  (db.slots.select (Slot.takes salonId date label)).length

theorem length_filter_le_count {α : Type} (labels : α → List Text) (rows : List α) (l : Text) :
    (rows.filter fun r => (labels r).contains l).length ≤ (rows.flatMap labels).count l := by
  induction rows with
  | nil => simp
  | cons r rows ih =>
    rw [List.flatMap_cons, List.count_append, List.filter_cons]
    split
    · rename_i hr
      have hone : 0 < (labels r).count l := List.count_pos_iff.mpr (by simpa using hr)
      rw [List.length_cons]
      omega
    · omega

theorem paidCount_le_count (db : Db) (salonId : Nat) (date l : Text) :
    paidCount db salonId date l ≤ ((db.paidSlotTimes salonId date).flatMap rowLabels).count l := by
  have hcount := length_filter_le_count (fun r : Slot => rowLabels r.slotTime)
    (db.slots.select fun r => r.salonId == salonId && r.slotDate == date &&
      r.paymentStatus == "paid".toList) l
  have hrows : db.slots.select (Slot.takes salonId date l) =
      (db.slots.select fun r => r.salonId == salonId && r.slotDate == date &&
        r.paymentStatus == "paid".toList).filter fun r => (rowLabels r.slotTime).contains l := by
    rw [Table.select, Table.select, List.filter_filter]
    apply List.filter_congr
    intro r _
    simp only [Slot.takes, Slot.paidAt]
    ac_rfl
  rw [paidCount, hrows, Db.paidSlotTimes, List.flatMap_map]
  exact hcount

theorem effectiveWorkers_some (w : Int) : effectiveWorkers (some w) = max w 1 := by
  unfold effectiveWorkers
  split
  · simp at *
  · rename_i h
    obtain rfl := Option.some.inj h
    rfl
  · rename_i h
    obtain rfl := Option.some.inj h
    rfl

end Counting

section Steps
variable {P : Platform} {σ σ' : Sys} {e : Event} {evs : List Event} {booking : PendingBooking}
  {row : Slot}

theorem count_step (h : Step P σ e σ') (q : Slot → Bool) :
    (σ'.db.slots.select q).length ≤
      (σ.db.slots.select q).length + if e.paid?.any q then 1 else 0 := by
  cases hpaid : e.paid? with
  | none =>
    have hle := (Table.select_sublist (h.slots_unpaid hpaid) q).length_le
    simpa using hle
  | some row =>
    rw [h.slots_paid hpaid, Table.select_insert, List.length_append]
    cases hq : q row <;> simp [hq]

theorem count_between (h : Run (Step P) σ evs σ') (q : Slot → Bool) :
    (σ'.db.slots.select q).length ≤
      (σ.db.slots.select q).length + evs.countP fun x => x.paid?.any q := by
  induction h with
  | nil => simp
  | snoc _ hstep ih =>
    have hle := count_step hstep q
    rw [List.countP_append, List.countP_singleton]
    omega

/-- Rows of a kind stay within a bound if each one inserted finds room. -/
theorem count_bounded (h : Run (Step P) Sys.init evs σ) (q : Slot → Bool) {bound : Int}
    (hbound : 0 ≤ bound)
    (hroom : ∀ pre e post t t' row, evs = pre ++ e :: post → Run (Step P) Sys.init pre t →
      Step P t e t' → e.paid? = some row → q row = true →
      ((t.db.slots.select q).length : Int) < bound) :
    ((σ.db.slots.select q).length : Int) ≤ bound := by
  induction h with
  | nil => simpa [Sys.init, initAllDatabases, Table.select] using hbound
  | @snoc es t u e hrun hstep ih =>
    have hle := ih fun pre e' post t t' row hes => hroom pre e' (post ++ [e]) t t' row (by simp [hes])
    have hcount := count_step hstep q
    cases hinserts : e.paid?.any q with
    | false =>
      rw [hinserts] at hcount
      exact Int.le_trans (Int.ofNat_le.mpr hcount) hle
    | true =>
      obtain ⟨row, hpaid, hq⟩ := (Option.any_eq_true _ _).mp hinserts
      have hless := hroom es e [] t u row rfl hrun hstep hpaid hq
      rw [hinserts] at hcount
      simp only [if_true] at hcount
      omega

/-- The salon has this worker count whenever a request is served. -/
def WorkersFixed (salonId : Nat) (W : Int) (evs : List Event) : Prop :=
  ∀ e ∈ evs, ∀ r ∈ e.before.salons.rows, r.1 = salonId → r.2.workerCount = some W

instance (salonId : Nat) (W : Int) (evs : List Event) : Decidable (WorkersFixed salonId W evs) := by
  unfold WorkersFixed
  infer_instance

/-- A stored booking found a free place for each of its labels. -/
theorem booked_free (h : Step P σ e σ') (hbooked : e.booked? = some booking) {W : Int}
    (hW : ∀ r ∈ e.before.salons.rows, r.1 = booking.salonId → r.2.workerCount = some W)
    {l : Text} (hl : l ∈ rowLabels (some booking.slotTime)) :
    (paidCount e.before booking.salonId booking.slotDate l : Int) < max W 1 := by
  obtain ⟨salonId, form, salon, -, hbooks, -⟩ := h.booked hbooked
  have hsalonId := hbooks.salonId_eq
  have hworkers := hW _ (Table.find?_eq_some.mp hbooks.row) hsalonId.symm
  obtain ⟨date, t, m, haccepted⟩ := checkBooking_ok.mp hbooks.checked
  rw [haccepted.labels] at hl
  have hfree := haccepted.free l hl
  rw [hworkers, effectiveWorkers_some] at hfree
  have hle := paidCount_le_count e.before salonId (form.slotDate.getD []) l
  rw [hsalonId, haccepted.booking]
  simp only
  omega

end Steps

section Interleaving
variable {P : Platform} {σ : Sys} {evs : List Event} {salonId : Nat} {W : Int}

def rowsInserted (evs : List Event) (salonId : Nat) (date l : Text) : Nat :=
  evs.countP fun x => x.paid?.any (Slot.takes salonId date l)

/-- Where rows for a label of the booking came in between the POST that stored it and its
payment, they were fewer than the places that were free. -/
def LeavesPlace (salonId : Nat) (W : Int) (pre : List Event) (e : Event) : Prop :=
  ∀ booking ∈ e.cookie.pendingBooking, e.paid?.isSome → booking.salonId = salonId →
    AfterLast (fun x => x.booked? = some booking ∧ x.cookie.userId = e.cookie.userId)
      (fun e₀ between => ∀ l ∈ rowLabels (some booking.slotTime),
        rowsInserted between salonId booking.slotDate l = 0 ∨
        (paidCount e₀.before salonId booking.slotDate l : Int) +
          rowsInserted between salonId booking.slotDate l < max W 1) pre

instance (salonId : Nat) (W : Int) (pre : List Event) (e : Event) :
    Decidable (LeavesPlace salonId W pre e) := by
  unfold LeavesPlace
  infer_instance

theorem place_left {σ' : Sys} {e : Event} {row : Slot} {l : Text}
    (h : Run (Step P) Sys.init evs σ) (hstep : Step P σ e σ')
    (hW : WorkersFixed salonId W evs) (hleaves : LeavesPlace salonId W evs e)
    (hpaid : e.paid? = some row) (hsalon : row.salonId = salonId)
    (hl : l ∈ rowLabels row.slotTime) :
    (paidCount σ.db salonId row.slotDate l : Int) < max W 1 := by
  obtain ⟨form, userId, username, booking, -, hpays, rfl, -⟩ := hstep.paid hpaid
  obtain ⟨id, hid, e₁, he₁, hbooked₁⟩ :=
    ((recorded h).presented hstep).pending booking hpays.pending
  obtain ⟨before, e₀, between, rfl, ⟨hbooked, huser⟩, hlast⟩ :=
    since_of_mem (p := fun x : Event => x.booked? = some booking ∧
      x.cookie.userId = e.cookie.userId) he₁ ⟨hbooked₁.1, hbooked₁.2.trans hid.symm⟩
  obtain ⟨t, t', -, hbook, hbetween⟩ := h.at_event
  have hfree := booked_free hbook hbooked
    (fun r hr hid => hW e₀ (by simp) r hr (hid.trans hsalon)) hl
  have hplace := hleaves booking hpays.pending (by rw [hpaid]; rfl) hsalon before e₀ between rfl
    ⟨hbooked, huser⟩ hlast l hl
  obtain ⟨_, _, _, -, -, -, hdb⟩ := hbook.booked hbooked
  have hcount := count_between hbetween (Slot.takes salonId booking.slotDate l)
  rw [hbook.db, hdb] at hcount
  change paidCount σ.db salonId booking.slotDate l ≤
    paidCount e₀.before salonId booking.slotDate l +
      rowsInserted between salonId booking.slotDate l at hcount
  change (paidCount σ.db salonId booking.slotDate l : Int) < max W 1
  change booking.salonId = salonId at hsalon
  rw [hsalon] at hfree
  omega

/-- No label is ever overbooked in a run whose interleavings leave a place to every booking. -/
theorem never_overbooked (h : Run (Step P) Sys.init evs σ) (hW : WorkersFixed salonId W evs)
    (hleaves : Throughout (LeavesPlace salonId W) evs) (date label : Text) :
    (paidCount σ.db salonId date label : Int) ≤ max W 1 := by
  apply count_bounded h _ (by omega)
  intro pre e post t t' row hevs hpre hstep hpaid htakes
  subst hevs
  simp only [Slot.takes, Slot.paidAt, Bool.and_eq_true, beq_iff_eq,
    List.contains_iff_mem] at htakes
  obtain ⟨⟨⟨hsalon, -⟩, rfl⟩, hl⟩ := htakes
  have hW' : WorkersFixed salonId W pre := fun x hx => hW x (List.mem_append_left _ hx)
  exact place_left hpre hstep hW' (hleaves pre e post rfl) hpaid hsalon hl

def interleaving (workers : String) : List Input :=
  opening workers ++ [sends 1 (book 1 "2030-01-01" "10:00" ["1"] "100"),
    sends 2 (book 1 "2030-01-01" "10:00" ["1"] "100"), opensPayment 1 "o1", opensPayment 2 "o2",
    sends 1 (payFor "o1"), sends 2 (payFor "o2")]

def twoPlaces : Script where
  inputs := interleaving "2"
  served := by decide +kernel

theorem never_overbooked_twoPlaces :
    (paidCount twoPlaces.final.db 1 "2030-01-01".toList "10:00".toList : Int) ≤ max 2 1 := by
  have hW : WorkersFixed 1 2 twoPlaces.events := by decide +kernel
  have hleaves : Throughout (LeavesPlace 1 2) twoPlaces.events := by decide +kernel
  exact never_overbooked twoPlaces.steps hW hleaves _ _

/-- The date that a text denotes in the format of the form. -/
def dateOf (slotDate : Text) : Option Date :=
  (strptimeDateClock (slotDate ++ " 00:00".toList)).map Prod.fst

/-- A date written YYYY-MM-DD and a start time from the buttons of book_slot.html. -/
def BookForm.FromPage (form : BookForm) : Prop :=
  (∃ d ∈ form.slotDate.bind dateOf, form.slotDate = some (isoDate d)) ∧
    ∃ l ∈ slotLabels 420 29, form.slotTime = some l

instance (form : BookForm) : Decidable form.FromPage := by
  unfold BookForm.FromPage
  infer_instance

/-- The payment is signed, and for the order this browser's last GET /payment created. -/
def PaysOwnOrder (P : Platform) (pre : List Event) (e : Event) : Prop :=
  ∀ form ∈ e.paymentForm?, ∃ orderId ∈ form.orderId, ∃ paymentId ∈ form.paymentId,
    form.signature = some (P.hmacSha256 (orderId ++ '|' :: paymentId)) ∧
    Since (fun g => g.browser = e.browser ∧ ∃ order ∈ g.order?, order.id = orderId)
      (fun x => x.browser = e.browser → x.order? = none) pre

instance (P : Platform) (pre : List Event) (e : Event) : Decidable (PaysOwnOrder P pre e) := by
  unfold PaysOwnOrder
  infer_instance

def onePlace : Script where
  inputs := interleaving "1"
  served := by decide +kernel

theorem interleaving_overbooked : ¬ ∀ (P : Platform) (evs : List Event) (σ : Sys)
    (salonId : Nat) (W : Int), (∀ b, Run (CurrentStep P b) Sys.init evs σ) →
    WorkersFixed salonId W evs → (∀ e ∈ evs, ∀ form ∈ e.bookForm?, form.FromPage) →
    Throughout (PaysOwnOrder P) evs → (evs.filterMap Event.paymentForm?).Nodup →
    ∀ date label, (paidCount σ.db salonId date label : Int) ≤ max W 1 := by
  intro h
  have hle := h plain _ _ 1 1 onePlace.run (by decide +kernel) (by decide +kernel)
    (by decide +kernel) (by decide +kernel) "2030-01-01".toList "10:00".toList
  exact absurd hle (by decide +kernel)

end Interleaving

end Gloora
