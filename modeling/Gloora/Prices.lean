import Gloora.BookSlotPage
import Gloora.Ownership

/-!
# What a booking costs

The total and the service ids of a booking are fields of the form, and the server keeps
them as they come. They are the salon's when the form is what the booking page sends.
-/

namespace Gloora
set_option autoImplicit false

open PyText Binary64 Keyed Runs

/-- The value of a service's check box, `{{ service.id }}`. -/
def idText (id : Nat) : Text := Nat.toDigits 10 id

theorem idText_injective : Function.Injective idText := by
  intro i j h
  have hread := congrArg (fun digits => Nat.ofDigitChars 10 digits 0) h
  simpa only [idText, Nat.ofDigitChars_ten_toDigits] using hread

/-- A form as the page of the salon sends it: some boxes are checked, and the total is the
finite number the page computes for them. No service is listed twice. -/
structure PageForm (db : Db) (salonId : Nat) (form : BookForm) (checked : List ServiceItem) :
    Prop where
  listed : checked.Sublist (getSalonServices db salonId)
  distinct : ((getSalonServices db salonId).map ServiceItem.id).Nodup
  services : form.selectedServices = checked.map fun item => idText item.id
  total : form.totalPrice.bind pyFloat = some (calculateTotal (checked.map ServiceItem.price))
  finite : IsFinite (calculateTotal (checked.map ServiceItem.price))

instance (db : Db) (salonId : Nat) (form : BookForm) (checked : List ServiceItem) :
    Decidable (PageForm db salonId form checked) :=
  decidable_of_iff (checked.Sublist (getSalonServices db salonId) ∧
      ((getSalonServices db salonId).map ServiceItem.id).Nodup ∧
      (form.selectedServices = checked.map fun item => idText item.id) ∧
      form.totalPrice.bind pyFloat = some (calculateTotal (checked.map ServiceItem.price)) ∧
      IsFinite (calculateTotal (checked.map ServiceItem.price)))
    ⟨fun ⟨hl, hd, hs, ht, hf⟩ => ⟨hl, hd, hs, ht, hf⟩,
      fun ⟨hl, hd, hs, ht, hf⟩ => ⟨hl, hd, hs, ht, hf⟩⟩

/-- The booking names distinct services of its salon and costs what they cost. -/
structure PricedFor (db : Db) (booking : PendingBooking) : Prop where
  distinct : booking.selectedServices.Nodup
  rows : ∃ rows : List SalonService,
    (∀ r ∈ rows, r.salonId = booking.salonId ∧ ∃ id, (id, r) ∈ db.salonServices.rows) ∧
    booking.selectedServices = rows.map (fun r => idText r.serviceId) ∧
    booking.serviceTotal = calculateTotal (rows.map SalonService.price)
  positive : ∃ n, 0 < n ∧ booking.serviceTotal = .fin n

theorem mem_getSalonServices {db : Db} {salonId : Nat} {item : ServiceItem}
    (h : item ∈ getSalonServices db salonId) : ∃ r : SalonService,
      (r.salonId = salonId ∧ ∃ id, (id, r) ∈ db.salonServices.rows) ∧
        r.serviceId = item.id ∧ r.price = item.price := by
  obtain ⟨r, hr, hitem⟩ := List.mem_filterMap.mp h
  obtain ⟨name, -, rfl⟩ := Option.map_eq_some_iff.mp hitem
  obtain ⟨hrow, hsalon⟩ := Table.mem_select.mp hr
  exact ⟨r, ⟨by simpa using hsalon, hrow⟩, rfl, rfl⟩

theorem exists_rows {Q : SalonService → Prop} {checked : List ServiceItem}
    (h : ∀ item ∈ checked, ∃ r, Q r ∧ r.serviceId = item.id ∧ r.price = item.price) :
    ∃ rows : List SalonService, (∀ r ∈ rows, Q r) ∧
      rows.map SalonService.serviceId = checked.map ServiceItem.id ∧
      rows.map SalonService.price = checked.map ServiceItem.price := by
  induction checked with
  | nil => exact ⟨[], by simp, rfl, rfl⟩
  | cons item checked ih =>
    obtain ⟨r, hr, hid, hprice⟩ := h item List.mem_cons_self
    obtain ⟨rows, hrows, hids, hprices⟩ := ih fun i hi => h i (List.mem_cons_of_mem _ hi)
    refine ⟨r :: rows, List.forall_mem_cons.mpr ⟨hr, hrows⟩, ?_, ?_⟩
    · rw [List.map_cons, List.map_cons, hid, hids]
    · rw [List.map_cons, List.map_cons, hprice, hprices]

theorem positive_of_finite {x : Double} (hfinite : IsFinite x) (hpos : leZero x = false) :
    ∃ n, 0 < n ∧ x = .fin n := by
  cases x with
  | nan => exact hfinite.elim
  | inf negative => exact hfinite.elim
  | fin n => exact ⟨n, (leZero_fin n).mp hpos, rfl⟩

/-- A total that `float` can read is taken as it is. -/
theorem totalPriceField_of_read {field : Option Text} {x : Double}
    (h : field.bind pyFloat = some x) : totalPriceField field = x := by
  obtain ⟨text, rfl, hread⟩ := Option.bind_eq_some_iff.mp h
  rw [totalPriceField, Option.getD_some, hread, Option.getD_some]

theorem PageForm.pricedFor {env : Env} {db : Db} {s : Session} {salonId : Nat} {form : BookForm}
    {salon : Salon} {booking : PendingBooking} {checked : List ServiceItem}
    (hpage : PageForm db salonId form checked)
    (hbooks : Books env db s salonId form salon booking) : PricedFor db booking := by
  obtain ⟨date, t, m, haccepted⟩ := checkBooking_ok.mp hbooks.checked
  have hsalonId : booking.salonId = salonId := hbooks.salonId_eq
  have hservices : booking.selectedServices = checked.map fun item => idText item.id := by
    rw [haccepted.booking]
    exact hpage.services
  have htotal : booking.serviceTotal = calculateTotal (checked.map ServiceItem.price) := by
    rw [haccepted.booking]
    exact totalPriceField_of_read hpage.total
  have hpositive : leZero booking.serviceTotal = false := by
    rw [haccepted.booking]
    exact haccepted.positive
  obtain ⟨rows, hrows, hids, hprices⟩ :=
    exists_rows fun item hitem => mem_getSalonServices (hpage.listed.subset hitem)
  have hids' : rows.map (fun r => idText r.serviceId) = checked.map fun item => idText item.id := by
    have hmap := congrArg (List.map idText) hids
    rw [List.map_map, List.map_map] at hmap
    exact hmap
  refine ⟨?_, ⟨rows, ?_, hservices.trans hids'.symm, ?_⟩, ?_⟩
  · have hnodup : (checked.map ServiceItem.id).Nodup :=
      hpage.distinct.sublist (hpage.listed.map ServiceItem.id)
    have hmap := hnodup.map idText_injective
    rw [List.map_map] at hmap
    rw [hservices]
    exact hmap
  · intro r hr
    rw [hsalonId]
    exact hrows r hr
  · rw [htotal, hprices]
  · exact positive_of_finite (htotal ▸ hpage.finite) hpositive

/-- Bookings made on the page are priced by the salon, and so are the rows they become. -/
theorem page_bookings_priced {P : Platform} {evs : List Event} {σ : Sys}
    (h : Run (Step P) Sys.init evs σ) :
    (∀ e ∈ evs, ∀ salonId form checked booking,
      e.request = .bookSlotForSalon salonId (some form) →
      PageForm e.before salonId form checked → e.booked? = some booking →
      PricedFor e.before booking) ∧
    ∀ id r, (id, r) ∈ σ.db.slots.rows → ∃ e ∈ evs, ∃ form booking,
      e.request = .bookSlotForSalon r.salonId (some form) ∧ e.booked? = some booking ∧
      r = paidRow r.userId r.username booking ∧
      ∀ checked, PageForm e.before r.salonId form checked →
        PricedFor e.before booking ∧ r.totalPrice = some booking.serviceTotal := by
  have hpriced : ∀ e ∈ evs, ∀ salonId form checked booking,
      e.request = .bookSlotForSalon salonId (some form) →
      PageForm e.before salonId form checked → e.booked? = some booking →
      PricedFor e.before booking := by
    intro e he salonId form checked booking hreq hpage hbooked
    obtain ⟨salonId', form', salon, hreq', hbooks⟩ := booked_mem h he hbooked
    obtain ⟨rfl, hform⟩ := Request.bookSlotForSalon.inj (hreq.symm.trans hreq')
    obtain rfl := Option.some.inj hform
    exact hpage.pricedFor hbooks
  refine ⟨hpriced, ?_⟩
  intro id r hr
  obtain ⟨e, he, form, salon, booking, hreq, hbooked, -, -, hrow⟩ := row_requested h hr
  refine ⟨e, he, form, booking, hreq, hbooked, hrow, ?_⟩
  intro checked hpage
  have hprice := hpriced e he _ form checked booking hreq hpage hbooked
  obtain ⟨n, -, hn⟩ := hprice.positive
  refine ⟨hprice, ?_⟩
  rw [hrow, hn]
  change sqliteReal booking.serviceTotal = _
  rw [hn]
  rfl

theorem page_bookings_priced_visit : ∃ r booking, (1, r) ∈ visit.final.db.slots.rows ∧
    r = paidRow r.userId r.username booking ∧ r.totalPrice = some booking.serviceTotal := by
  have hrow : (visit.final.db.slots.find? 1).isSome := by decide +kernel
  have hsalon : ∀ r ∈ visit.final.db.slots.find? 1, r.salonId = 1 := by decide +kernel
  have hforms : ∀ e ∈ visit.events, ∀ form ∈ e.bookForm?,
      PageForm e.before 1 form [⟨1, "cut".toList, pyFloat "100".toList⟩] := by decide +kernel
  obtain ⟨r, hr⟩ := Option.isSome_iff_exists.mp hrow
  have hmem := Table.find?_eq_some.mp hr
  obtain ⟨e, he, form, booking, hreq, -, hpaid, hpage⟩ :=
    (page_bookings_priced visit.steps).2 1 r hmem
  have hform : form ∈ e.bookForm? := by simp [Event.bookForm?, hreq]
  refine ⟨r, booking, hmem, hpaid, (hpage [⟨1, "cut".toList, pyFloat "100".toList⟩] ?_).2⟩
  rw [hsalon r hr]
  exact hforms e he form hform

def cheapTotal : Script where
  inputs := opening "1" ++ [sends 1 (book 1 "2030-01-01" "10:00" ["1"] "1")]
  served := by decide +kernel

theorem cheap_total_stored : ¬ ∀ (P : Platform) (evs : List Event) (σ : Sys),
    Run (Step P) Sys.init evs σ → ∀ e ∈ evs, ∀ booking, e.booked? = some booking →
      PricedFor e.before booking := by
  intro h
  have hstored : ∃ e ∈ cheapTotal.events, ∃ booking ∈ e.booked?,
      booking.selectedServices.length = 1 ∧ ∀ r ∈ e.before.salonServices.rows,
        booking.serviceTotal ≠ calculateTotal [r.2.price] := by decide +kernel
  obtain ⟨e, he, booking, hbooked, hone, hother⟩ := hstored
  obtain ⟨rows, hrows, hservices, htotal⟩ :=
    (h plain _ _ cheapTotal.steps e he booking hbooked).rows
  rw [hservices, List.length_map] at hone
  obtain ⟨r, rfl⟩ := List.length_eq_one_iff.mp hone
  obtain ⟨-, id, hr⟩ := hrows r (List.mem_singleton_self r)
  exact hother (id, r) hr htotal

end Gloora
