import Gloora.Prices
import Gloora.Registration

/-!
# Booking a service at its price

A price is read three times: by `float` when the salon is registered, by `parseFloat` from the
booking page, and by `float` again from the total the page posts.
-/

namespace Gloora
set_option autoImplicit false

open PyText Binary64 Keyed Runs Threads Transactions Calendar

section Totals

/-- A step of `calculateTotal` in exact arithmetic; `none` is NaN. -/
def addExact : Option Int → Option Double → Option Int
  | some total, some (.fin n) => some (total + n)
  | _, _ => none

/-- The sum of the prices, if all of them are finite numbers. -/
def exactTotal (prices : List (Option Double)) : Option Int := prices.foldl addExact (some 0)

/-- No addition of `calculateTotal` rounds. -/
def AddsExactly (prices : List (Option Double)) : Prop :=
  ∀ done n rest total, prices = done ++ some (.fin n) :: rest → calculateTotal done = .fin total →
    add (.fin total) (.fin n) = .fin (total + n)

theorem calculateTotal_snoc (done : List (Option Double)) (price : Option Double) :
    calculateTotal (done ++ [price]) = add (calculateTotal done) (renderedPrice price) := by
  simp [calculateTotal]

theorem exactTotal_snoc (done : List (Option Double)) (price : Option Double) :
    exactTotal (done ++ [price]) = addExact (exactTotal done) price := by
  simp [exactTotal]

theorem addExact_eq_some {total : Option Int} {price : Option Double} {n : Int} :
    addExact total price = some n ↔ ∃ m k, total = some m ∧ price = some (.fin k) ∧ n = m + k := by
  constructor
  · intro h
    unfold addExact at h
    split at h
    · exact ⟨_, _, rfl, rfl, (Option.some.inj h).symm⟩
    · cases h
  · rintro ⟨m, k, rfl, rfl, rfl⟩
    rfl

theorem AddsExactly.init {done : List (Option Double)} {price : Option Double}
    (h : AddsExactly (done ++ [price])) : AddsExactly done := by
  rintro done' n rest total rfl htotal
  apply h done' n (rest ++ [price]) total _ htotal
  simp

theorem calculateTotal_singleton (price : Option Double) :
    calculateTotal [price] = add (.fin 0) (renderedPrice price) := rfl

/-- The page adds up positive numbers to a positive number or to an infinity. -/
theorem calculateTotal_positive {prices : List (Option Double)} (hne : prices ≠ [])
    (h : ∀ price ∈ prices, ∃ n, 0 < n ∧ price = some (.fin n)) :
    calculateTotal prices = .inf false ∨ ∃ n, 0 < n ∧ calculateTotal prices = .fin n := by
  induction prices using List.reverseRecOn with
  | nil => exact absurd rfl hne
  | append_singleton done price ih =>
    obtain ⟨n, hn, rfl⟩ := h price (by simp)
    rw [calculateTotal_snoc]
    by_cases hdone : done = []
    · subst hdone
      exact fin_add_pos (Int.le_refl 0) hn
    · rcases ih hdone fun price hprice => h price (by simp [hprice]) with hinf | ⟨m, hm, hfin⟩
      · rw [hinf]
        exact .inl rfl
      · rw [hfin]
        exact fin_add_pos (Int.le_of_lt hm) hn

theorem exactTotal_positive {prices : List (Option Double)} (hne : prices ≠ [])
    (h : ∀ price ∈ prices, ∃ n, 0 < n ∧ price = some (.fin n)) :
    ∃ n, 0 < n ∧ exactTotal prices = some n := by
  induction prices using List.reverseRecOn with
  | nil => exact absurd rfl hne
  | append_singleton done price ih =>
    obtain ⟨n, hn, rfl⟩ := h price (by simp)
    rw [exactTotal_snoc]
    by_cases hdone : done = []
    · subst hdone
      exact ⟨0 + n, by omega, rfl⟩
    · obtain ⟨m, hm, htotal⟩ := ih hdone fun price hprice => h price (by simp [hprice])
      exact ⟨m + n, by omega, addExact_eq_some.mpr ⟨m, n, htotal, rfl, rfl⟩⟩

/-- Without rounding the page shows the exact total. -/
theorem calculateTotal_exact {prices : List (Option Double)} (hexact : AddsExactly prices) {n : Int}
    (h : exactTotal prices = some n) : calculateTotal prices = .fin n := by
  induction prices using List.reverseRecOn generalizing n with
  | nil =>
    obtain rfl := Option.some.inj h
    rfl
  | append_singleton done price ih =>
    rw [exactTotal_snoc] at h
    obtain ⟨m, k, hdone, rfl, rfl⟩ := addExact_eq_some.mp h
    have htotal := ih hexact.init hdone
    rw [calculateTotal_snoc, htotal]
    exact hexact done k [] m rfl htotal

end Totals

section Booking

/-- What the page posts for the checked services, at some date and time. `float` reads the
text of the total as the number it is the text of. -/
structure Posted (checked : List ServiceItem) (form : BookForm) : Prop where
  date : form.slotDate.getD [] ≠ []
  time : form.slotTime.getD [] ≠ []
  services : form.selectedServices = checked.map fun item => idText item.id
  total : form.totalPrice.bind pyFloat = some (calculateTotal (checked.map ServiceItem.price))

def incomplete : Refusal := .flash "Please select date, time and at least one service!".toList

/-- However services of the salon are checked, the validation takes the total, and a booking
stores the exact sum of the prices. -/
def BookableAtPrice (db : Db) (salonId : Nat) : Prop :=
  ∀ checked, checked.Sublist (getSalonServices db salonId) → checked ≠ [] →
    ∀ form, Posted checked form → ∀ now workerCount paid,
      checkBooking now salonId workerCount paid form ≠ .error incomplete ∧
      ∀ booking, checkBooking now salonId workerCount paid form = .ok booking →
        ∃ n, 0 < n ∧ exactTotal (checked.map ServiceItem.price) = some n ∧
          (AddsExactly (checked.map ServiceItem.price) → booking.serviceTotal = .fin n)

variable {now salonId : Nat} {workerCount : Option Int} {paid : Text → List (Option Text)}
  {form : BookForm} {booking : PendingBooking} {checked : List ServiceItem}

/-- The first check looks for missing fields and at the sign of the total; no other check ends
with its message. -/
theorem checkBooking_incomplete : checkBooking now salonId workerCount paid form =
    .error incomplete ↔ form.slotDate.getD [] = [] ∨ form.slotTime.getD [] = [] ∨
      form.selectedServices = [] ∨ leZero (totalPriceField form.totalPrice) = true := by
  constructor
  · intro h
    obtain ⟨refusal, hrefusal⟩ : ∃ refusal, incomplete = refusal := ⟨_, rfl⟩
    have hrefused := checkBooking_error h
    rw [hrefusal] at hrefused
    cases hrefused with
    | fields hfields => exact hfields
    | invalid => simp [incomplete] at hrefusal
    | past => simp [incomplete] at hrefusal
    | raised => cases hrefusal
    | closing => simp [incomplete] at hrefusal
    | taken => exact absurd (Refusal.flash.inj hrefusal).symm (unavailable_ne _ (by decide))
  · intro hfields
    have hfirst : ((form.slotDate.getD []).isEmpty || (form.slotTime.getD []).isEmpty ||
        form.selectedServices.isEmpty || leZero (totalPriceField form.totalPrice)) = true := by
      simpa [or_assoc] using hfields
    unfold checkBooking incomplete
    simp only [hfirst, if_true]

theorem Posted.incomplete_iff (h : Posted checked form) (hne : checked ≠ []) :
    checkBooking now salonId workerCount paid form = .error incomplete ↔
      leZero (calculateTotal (checked.map ServiceItem.price)) = true := by
  have hservices : form.selectedServices ≠ [] := by simpa [h.services] using hne
  rw [checkBooking_incomplete, totalPriceField_of_read h.total]
  simp [h.date, h.time, hservices]

theorem Posted.serviceTotal (h : Posted checked form)
    (hok : checkBooking now salonId workerCount paid form = .ok booking) :
    booking.serviceTotal = calculateTotal (checked.map ServiceItem.price) := by
  obtain ⟨date, t, m, haccepted⟩ := checkBooking_ok.mp hok
  rw [haccepted.booking]
  exact totalPriceField_of_read h.total

/-- One service at ten, with a text of its total. -/
def soloForm (item : ServiceItem) (total : Text) : BookForm where
  slotDate := some "2030-01-01".toList
  slotTime := some "10:00".toList
  selectedServices := [idText item.id]
  totalPrice := some total

theorem soloForm_ok (salonId : Nat) (item : ServiceItem) {total : Text}
    (h : leZero (totalPriceField (some total)) = false) :
    ∃ booking, checkBooking 0 salonId none (fun _ => []) (soloForm item total) = .ok booking := by
  have hstart : strptimeDateClock "2030-01-01 10:00".toList =
      some (⟨2030, 1, 1, by decide⟩, 600) := by
    decide +kernel
  have hclock : strptimeClock "10:00".toList = some 600 := by decide +kernel
  have haccepted : Accepted 0 salonId none (fun _ => []) (soloForm item total) _ _ 600 600 :=
    { services := by simp [soloForm]
      positive := h
      start := hstart
      future := Nat.zero_le _
      clock := hclock
      representable := by
        intro i hi
        obtain rfl : i = 0 := by simpa [soloForm] using hi
        decide
      closing := by decide
      free := by
        intro l _
        simp [effectiveWorkers]
      booking := rfl }
  exact ⟨_, checkBooking_ok.mpr ⟨_, _, _, haccepted⟩⟩

theorem soloForm_posted {item : ServiceItem} {total : Text}
    (h : pyFloat total = some (calculateTotal [item.price])) :
    Posted [item] (soloForm item total) where
  date := by simp [soloForm]
  time := by simp [soloForm]
  services := rfl
  total := h

end Booking

section Registered
variable {db : Db} {salonId : Nat}

theorem bookable_of_positive (h : ∀ item ∈ getSalonServices db salonId,
    ∃ n, 0 < n ∧ item.price = some (.fin n)) : BookableAtPrice db salonId := by
  intro checked hlisted hne form hposted now workerCount paid
  have hne' : checked.map ServiceItem.price ≠ [] := by simpa using hne
  have hprices : ∀ price ∈ checked.map ServiceItem.price, ∃ n, 0 < n ∧ price = some (.fin n) := by
    intro price hprice
    obtain ⟨item, hitem, rfl⟩ := List.mem_map.mp hprice
    exact h item (hlisted.subset hitem)
  constructor
  · rw [Ne, hposted.incomplete_iff hne]
    rcases calculateTotal_positive hne' hprices with hinf | ⟨n, hn, hfin⟩
    · rw [hinf]
      decide
    · rw [hfin, (leZero_fin n).mpr hn]
      decide
  · intro booking hok
    obtain ⟨n, hn, htotal⟩ := exactTotal_positive hne' hprices
    refine ⟨n, hn, htotal, fun hexact => ?_⟩
    rw [hposted.serviceTotal hok]
    exact calculateTotal_exact hexact htotal

/-- A price that some text was read as can only be booked alone when it is positive. -/
theorem positive_of_bookable (h : BookableAtPrice db salonId) {item : ServiceItem}
    (hitem : item ∈ getSalonServices db salonId) {text : Text} {x : Double}
    (hread : pyFloat text = some x) (hprice : item.price = sqliteReal x) :
    ∃ n, 0 < n ∧ x = .fin n := by
  have hlisted : [item].Sublist (getSalonServices db salonId) := List.singleton_sublist.mpr hitem
  -- the page posts NaN, which passes the validation
  have hnan : renderedPrice item.price ≠ .nan := by
    intro hnan
    have htotal : calculateTotal [item.price] = .nan := by
      rw [calculateTotal_singleton, hnan]
      rfl
    have hposted : Posted [item] (soloForm item "nan".toList) := by
      apply soloForm_posted
      rw [htotal]
      decide +kernel
    have htaken : leZero (totalPriceField (some "nan".toList)) = false := by decide +kernel
    obtain ⟨booking, hok⟩ := soloForm_ok salonId item htaken
    obtain ⟨n, -, hsum, -⟩ := (h [item] hlisted (by simp) _ hposted 0 none _).2 booking hok
    obtain ⟨-, k, -, hfin, -⟩ := addExact_eq_some.mp hsum
    rw [hfin] at hnan
    cases hnan
  cases x with
  | nan => exact absurd (by rw [hprice]; rfl) hnan
  | inf negative => exact absurd (by rw [hprice]; rfl) hnan
  | fin n =>
    refine ⟨n, ?_, rfl⟩
    have htotal : calculateTotal [item.price] = .fin n := by
      rw [calculateTotal_singleton, hprice]
      exact fin_zero_add (isDouble_pyFloat hread)
    have hposted : Posted [item] (soloForm item text) := soloForm_posted (by rw [htotal, hread])
    have htaken := (h [item] hlisted (by simp) _ hposted 0 none fun _ => []).1
    rw [Ne, hposted.incomplete_iff (by simp), List.map_singleton, htotal,
      Bool.not_eq_true] at htaken
    exact (leZero_fin n).mp htaken

theorem mem_validServices {form : SalonForm} {service : Text × Double}
    (h : service ∈ validServices form) : ∃ text, pyFloat text = some service.2 := by
  obtain ⟨⟨name, price⟩, -, hvalid⟩ := List.mem_filterMap.mp h
  unfold validService at hvalid
  simp only at hvalid
  split at hvalid
  · cases hvalid
  · obtain ⟨value, hread, rfl⟩ := Option.map_eq_some_iff.mp hvalid
    exact ⟨_, hread⟩

/-- The services of a new salon can be booked at their prices exactly when all of these are
positive finite numbers. -/
theorem services_bookable_iff (P : Platform) (jar : Nat → List Session) (evs : List ServerMove)
    (σ : Server) (h : Run (PoolStep P) (Server.start initAllDatabases jar) evs σ) (env : Env)
    (s : Session) (form : SalonForm)
    (haccepted : (handle P env σ.store.db s (.registerSalon form)).body =
      .redirect "show_salons".toList none) :
    BookableAtPrice (handle P env σ.store.db s (.registerSalon form)).db
        (σ.store.db.salons.seq + 1) ↔
      ∀ service ∈ validServices form, ∃ n, 0 < n ∧ service.2 = .fin n := by
  have hmenu := menu_registered (linked_run h) haccepted
  constructor
  · intro hbookable service hservice
    have hmem : (service.1, sqliteReal service.2) ∈ priced (validServices form) :=
      List.mem_map.mpr ⟨service, hservice, rfl⟩
    rw [← hmenu] at hmem
    obtain ⟨item, hitem, heq⟩ := List.mem_map.mp hmem
    obtain ⟨text, hread⟩ := mem_validServices hservice
    exact positive_of_bookable hbookable hitem hread (Prod.mk.inj heq).2
  · intro hpositive
    apply bookable_of_positive
    intro item hitem
    have hmem : (item.name, item.price) ∈
        menu (registerSalon P env σ.store.db s form).db (σ.store.db.salons.seq + 1) :=
      List.mem_map.mpr ⟨item, hitem, rfl⟩
    rw [hmenu] at hmem
    obtain ⟨service, hservice, heq⟩ := List.mem_map.mp hmem
    obtain ⟨n, hn, hprice⟩ := hpositive service hservice
    refine ⟨n, hn, ?_⟩
    rw [← (Prod.mk.inj heq).2, hprice]
    rfl

theorem services_bookable_iff_again : (validServices secondForm).length = 3 ∧
    (BookableAtPrice (handle plain (calmly 0 "order") firstSalon.final.store.db {}
        (.registerSalon secondForm)).db (firstSalon.final.store.db.salons.seq + 1) ↔
      ∀ service ∈ validServices secondForm, ∃ n, 0 < n ∧ service.2 = .fin n) :=
  ⟨by decide +kernel, services_bookable_iff plain _ _ _ firstSalon.run _ _ _ (by decide +kernel)⟩

/-- A salon that offers a first visit for nothing. -/
def freeForm : SalonForm :=
  { secondForm with
    serviceNames := ["first visit".toList]
    servicePrices := ["0".toList] }

theorem free_service_unbookable : ¬ ∀ (P : Platform) (jar : Nat → List Session)
    (evs : List ServerMove) (σ : Server),
    Run (PoolStep P) (Server.start initAllDatabases jar) evs σ → ∀ (env : Env) (s : Session)
    (form : SalonForm), (handle P env σ.store.db s (.registerSalon form)).body =
      .redirect "show_salons".toList none →
    BookableAtPrice (handle P env σ.store.db s (.registerSalon form)).db
      (σ.store.db.salons.seq + 1) := by
  intro h
  have hbookable := h plain _ _ _ firstSalon.run (calmly 0 "order") {} freeForm (by decide +kernel)
  have hitem : (⟨2, "first visit".toList, some (.fin 0)⟩ : ServiceItem) ∈ getSalonServices
      (handle plain (calmly 0 "order") firstSalon.final.store.db {} (.registerSalon freeForm)).db
      (firstSalon.final.store.db.salons.seq + 1) := by decide +kernel
  have hread : pyFloat "0".toList = some (.fin 0) := by decide +kernel
  obtain ⟨n, hn, hzero⟩ := positive_of_bookable hbookable hitem hread rfl
  obtain rfl := Double.fin.inj hzero
  exact absurd hn (by decide)

end Registered

end Gloora
