import Gloora.Lib.Moments
import Gloora.BookingSpec
import Gloora.BookSlotPage

/-!
# Picked slots and booked slots

The page lets the user pick as many half hours as services are checked and posts them joined
by commas. POST /book-slot reads one clock time and books the half hours that follow it.
-/

namespace Gloora
set_option autoImplicit false

open PyText Binary64 Calendar

theorem slotTimes_eq : slotTimes = slotLabels 420 29 := by decide +kernel

theorem slotTimes_nodup : slotTimes.Nodup := by decide +kernel

namespace SlotPicker

/-- The buttons shown with the class `selected`. -/
def Highlighted (p : SlotPicker) (time : Text) : Prop :=
  ∃ (k : Nat) (btn : SlotButton), p.buttons[k]? = some btn ∧ btn.time = time ∧ btn.selected = true

/-- The page before the first click: whichever buttons are disabled, none is selected. -/
structure Untouched (p : SlotPicker) : Prop where
  times : p.buttons.map SlotButton.time = slotTimes
  unselected : ∀ btn ∈ p.buttons, btn.selected = false
  noSlots : p.selectedSlots = []
  noTime : p.hiddenTimeInput = []

/-- The variables of the script agree with what the page shows. -/
structure Consistent (p : SlotPicker) : Prop where
  times : p.buttons.map SlotButton.time = slotTimes
  hidden : p.hiddenTimeInput = joinComma p.selectedSlots
  shown : ∀ t, t ∈ p.selectedSlots ↔ p.Highlighted t
  limit : p.selectedSlots.length ≤ p.page.selectedServiceCount

variable {p : SlotPicker} {k : Nat} {ks : List Nat} {t : Text}

theorem Untouched.consistent (h : p.Untouched) : p.Consistent where
  times := h.times
  hidden := by rw [h.noTime, h.noSlots]; rfl
  shown := by
    intro t
    constructor
    · intro ht
      rw [h.noSlots] at ht
      cases ht
    · rintro ⟨k, btn, hbtn, -, hselected⟩
      rw [h.unselected btn (List.mem_of_getElem? hbtn)] at hselected
      cases hselected
  limit := by simp [h.noSlots]

/-- Two buttons of one time are one button. -/
theorem Consistent.index_unique (h : p.Consistent) {i j : Nat} {btn btn' : SlotButton}
    (hi : p.buttons[i]? = some btn) (hj : p.buttons[j]? = some btn')
    (htime : btn.time = btn'.time) : i = j := by
  have hi' : slotTimes[i]? = some btn.time := by rw [← h.times, List.getElem?_map, hi]; rfl
  have hj' : slotTimes[j]? = some btn.time := by rw [← h.times, List.getElem?_map, hj, htime]; rfl
  have hlt := (List.getElem?_eq_some_iff.mp hi').1
  exact (List.getElem?_inj hlt slotTimes_nodup).mp (hi'.trans hj'.symm)

section Click
variable {btn : SlotButton} {selected : Bool} {q : SlotPicker}

/-- The buttons of `q` are those of `p`, except that one has the class or has lost it. -/
def Switched (p q : SlotPicker) (k : Nat) (btn : SlotButton) (selected : Bool) : Prop :=
  ∀ i, q.buttons[i]? = if i = k then some { btn with selected := selected } else p.buttons[i]?

theorem switched_set (hk : p.buttons[k]? = some btn)
    (hq : q.buttons = p.buttons.set k { btn with selected := selected }) :
    Switched p q k btn selected := by
  intro i
  have hlt := (List.getElem?_eq_some_iff.mp hk).1
  rw [hq]
  by_cases hi : i = k
  · rw [hi, List.getElem?_set_self hlt, if_pos rfl]
  · rw [List.getElem?_set_ne (Ne.symm hi), if_neg hi]

theorem Switched.times (h : Switched p q k btn selected) (hk : p.buttons[k]? = some btn) :
    q.buttons.map SlotButton.time = p.buttons.map SlotButton.time := by
  apply List.ext_getElem?
  intro i
  rw [List.getElem?_map, List.getElem?_map, h i]
  split
  · rename_i hi
    rw [hi, hk]
    rfl
  · rfl

/-- Only the time of the switched button is shown differently. -/
theorem Switched.highlighted (h : Switched p q k btn selected) (hp : p.Consistent)
    (hk : p.buttons[k]? = some btn) :
    q.Highlighted t ↔ if t = btn.time then selected = true else p.Highlighted t := by
  split
  · rename_i ht
    constructor
    · rintro ⟨i, b, hb, htime, hselected⟩
      rw [h i] at hb
      split at hb
      · rw [← Option.some.inj hb] at hselected
        exact hselected
      · rename_i hi
        exact absurd (hp.index_unique hb hk (htime.trans ht)) hi
    · intro hselected
      exact ⟨k, { btn with selected := selected }, by rw [h k, if_pos rfl], ht.symm, hselected⟩
  · rename_i ht
    constructor
    · rintro ⟨i, b, hb, htime, hselected⟩
      rw [h i] at hb
      split at hb
      · rw [← Option.some.inj hb] at htime
        exact absurd htime.symm ht
      · exact ⟨i, b, hb, htime, hselected⟩
    · rintro ⟨i, b, hb, htime, hselected⟩
      refine ⟨i, b, ?_, htime, hselected⟩
      rw [h i, if_neg]
      · exact hb
      · rintro rfl
        rw [hk] at hb
        rw [← Option.some.inj hb] at htime
        exact ht htime.symm

/-- `selectedSlots` follows the buttons when it changes at the time of the switched one only. -/
theorem switched_consistent (h : p.Consistent) (hk : p.buttons[k]? = some btn)
    (hbuttons : q.buttons = p.buttons.set k { btn with selected := selected })
    (hhidden : q.hiddenTimeInput = joinComma q.selectedSlots)
    (hslots : ∀ t, t ∈ q.selectedSlots ↔
      if t = btn.time then selected = true else t ∈ p.selectedSlots)
    (hlimit : q.selectedSlots.length ≤ q.page.selectedServiceCount) : q.Consistent := by
  have hswitched := switched_set hk hbuttons
  refine ⟨(hswitched.times hk).trans h.times, hhidden, ?_, hlimit⟩
  intro t
  rw [hslots, hswitched.highlighted h hk, h.shown]

end Click

theorem click_consistent (h : p.Consistent) (k : Nat) : (p.click k).Consistent := by
  unfold click
  split
  · exact h
  rename_i btn hk
  simp only
  split
  · exact h
  split
  · exact h
  split
  · apply switched_consistent h hk rfl rfl
    · intro t
      by_cases ht : t = btn.time <;> simp [ht]
    · exact Nat.le_trans (List.length_filter_le _ _) h.limit
  split
  · exact h
  · rename_i hroom
    apply switched_consistent h hk rfl rfl
    · intro t
      by_cases ht : t = btn.time <;> simp [ht]
    · simp only [List.length_append, List.length_singleton]
      omega

theorem clicks_consistent (h : p.Consistent) (ks : List Nat) : (p.clicks ks).Consistent := by
  induction ks generalizing p with
  | nil => exact h
  | cons k ks ih => exact ih (click_consistent h k)

theorem click_page (k : Nat) : (p.click k).page = p.page := by
  unfold click
  split
  · rfl
  simp only
  repeat' split
  all_goals rfl

theorem clicks_page (ks : List Nat) : (p.clicks ks).page = p.page := by
  induction ks generalizing p with
  | nil => rfl
  | cons k ks ih => exact ih.trans (click_page k)

/-- A highlighted slot is a half hour from 7:00 on that ends by 21:30. -/
theorem Consistent.slot (h : p.Consistent) (ht : t ∈ p.selectedSlots) :
    ∃ m, m + 30 ≤ 1290 ∧ t = hhmm m := by
  obtain ⟨k, btn, hbtn, rfl, -⟩ := (h.shown t).mp ht
  have hmem : btn.time ∈ slotTimes := by
    rw [← h.times]
    exact List.mem_map_of_mem (List.mem_of_getElem? hbtn)
  rw [slotTimes_eq] at hmem
  obtain ⟨i, hi, htime⟩ := mem_slotLabels.mp hmem
  exact ⟨420 + 30 * i, by omega, htime⟩

end SlotPicker

theorem comma_mem_joinComma (t u : Text) (ts : List Text) : ',' ∈ joinComma (t :: u :: ts) := by
  simp [joinComma, List.intercalate]

/-- The replies the page's user may expect: the start is past, too late, or a slot is taken. -/
def Refusal.Expected (refusal : Refusal) : Prop :=
  refusal = .flash "You cannot book past time slots!".toList ∨
    refusal = .flash "Selected services exceed salon closing time (10:00 PM).".toList ∨
    ∃ slot, refusal = .flash (unavailable slot)

/-- The replies about a taken slot begin with a T. -/
theorem not_expected_flash {message : Text}
    (hpast : message ≠ "You cannot book past time slots!".toList)
    (hclosing : message ≠ "Selected services exceed salon closing time (10:00 PM).".toList)
    (htaken : message.head? ≠ some 'T') : ¬ (Refusal.flash message).Expected := by
  rintro (h | h | ⟨slot, h⟩)
  · exact hpast (Refusal.flash.inj h)
  · exact hclosing (Refusal.flash.inj h)
  · exact unavailable_ne slot htaken (Refusal.flash.inj h).symm

theorem not_expected_fields :
    ¬ (Refusal.flash "Please select date, time and at least one service!".toList).Expected :=
  not_expected_flash (by decide) (by decide) (by decide)

theorem not_expected_invalid : ¬ (Refusal.flash "Invalid date or time!".toList).Expected :=
  not_expected_flash (by decide) (by decide) (by decide)

theorem not_expected_raised (e : Text) : ¬ (Refusal.raised e).Expected := by
  simp [Refusal.Expected]

/-- Whatever the clock, the workers and the paid rows are, the server books the highlighted
slots and no others, or gives an expected reply. -/
structure BookedAsPicked (p : SlotPicker) (selectedServices : List Text) (totalPrice : Text) :
    Prop where
  booked : ∀ now salonId workerCount paid booking,
    checkBooking now salonId workerCount paid (p.form selectedServices totalPrice) = .ok booking →
      ∀ l, l ∈ splitComma booking.slotTime ↔ p.Highlighted l
  refused : ∀ now salonId workerCount paid refusal,
    checkBooking now salonId workerCount paid (p.form selectedServices totalPrice) =
      .error refusal → refusal.Expected

section Server
variable {now salonId : Nat} {workerCount : Option Int} {paid : Text → List (Option Text)}
  {form : BookForm} {booking : PendingBooking} {refusal : Refusal}

theorem checkBooking_unpriced (h : leZero (totalPriceField form.totalPrice) = true) :
    checkBooking now salonId workerCount paid form =
      .error (.flash "Please select date, time and at least one service!".toList) := by
  simp [checkBooking, h]

theorem isoDate_ne_nil (date : Date) : isoDate date ≠ [] := by
  simp [isoDate, pad4, pad2]

/-- A form with one clock time of the page in it. -/
structure OneSlot (form : BookForm) (date : Date) (m : Nat) : Prop where
  date : form.slotDate = some (isoDate date)
  time : form.slotTime = some (hhmm m)
  early : m + 30 ≤ 1290
  services : form.selectedServices ≠ []
  priced : leZero (totalPriceField form.totalPrice) = false

variable {date : Date} {m : Nat}

theorem OneSlot.clock (h : OneSlot form date m) :
    strptimeClock (form.slotTime.getD []) = some m := by
  have hearly := h.early
  rw [h.time, Option.getD_some, strptimeClock_hhmm, Nat.mod_eq_of_lt (by omega)]

theorem OneSlot.start (h : OneSlot form date m) :
    strptimeDateClock (form.slotDate.getD [] ++ ' ' :: form.slotTime.getD []) = some (date, m) := by
  have hearly := h.early
  rw [h.date, h.time, Option.getD_some, Option.getD_some, strptimeDateClock_canonical,
    Nat.mod_eq_of_lt (by omega)]

theorem OneSlot.labels (h : OneSlot form date m)
    (hok : checkBooking now salonId workerCount paid form = .ok booking) :
    splitComma booking.slotTime = slotLabels m form.selectedServices.length := by
  obtain ⟨date', t, m', haccepted⟩ := checkBooking_ok.mp hok
  obtain rfl : m' = m := Option.some.inj (haccepted.clock.symm.trans h.clock)
  rw [haccepted.booking]
  exact splitComma_slotLabels m' haccepted.length_ne

/-- How the server can refuse such a form. -/
theorem OneSlot.refused (h : OneSlot form date m)
    (herror : checkBooking now salonId workerCount paid form = .error refusal) :
    refusal = .flash "You cannot book past time slots!".toList ∧ instantOf date m < now ∨
    (∃ e, refusal = .raised e ∧
      ¬ ∀ i < form.selectedServices.length, clockInstant m + i * 30 < endOfTime) ∨
    ∃ slot, refusal = .flash (unavailable slot) ∧ effectiveWorkers workerCount ≤
      (((paid (isoDate date)).flatMap rowLabels).count slot : Int) := by
  cases checkBooking_error herror with
  | fields hfields =>
    have hdate := isoDate_ne_nil date
    have htime : hhmm m ≠ [] := by simp [hhmm]
    simp [h.date, h.time, h.services, h.priced, hdate, htime] at hfields
  | invalid hinvalid =>
    rw [h.start] at hinvalid
    cases hinvalid
  | past hstart hpast =>
    rw [h.start] at hstart
    obtain ⟨rfl, rfl⟩ := Prod.mk.inj (Option.some.inj hstart)
    exact .inl ⟨rfl, hpast⟩
  | raised hslots =>
    refine .inr (.inl ⟨_, rfl, ?_⟩)
    intro hrepr
    cases hn : form.selectedServices.length with
    | zero => exact h.services (List.length_eq_zero_iff.mp hn)
    | succ n =>
      apply hslots (hhmm m) (slotLabels (m + 30) n)
      rw [← slotLabels_succ, ← hn]
      exact generateRequiredSlots_ok.mpr ⟨m, h.clock, hrepr, rfl⟩
  | closing hclock hclosing =>
    rw [h.clock] at hclock
    obtain rfl := Option.some.inj hclock
    have hearly := h.early
    omega
  | taken hclock hslot hfull =>
    rw [h.date] at hfull
    exact .inr (.inr ⟨_, rfl, hfull⟩)

theorem OneSlot.checked (h : OneSlot form date m) (hone : form.selectedServices.length = 1)
    (herror : checkBooking now salonId workerCount paid form = .error refusal) :
    refusal.Expected := by
  rcases h.refused herror with ⟨rfl, -⟩ | ⟨e, -, hlate⟩ | ⟨slot, rfl, -⟩
  · exact .inl rfl
  · have hearly := h.early
    refine absurd ?_ hlate
    intro i hi
    unfold clockInstant endOfTime
    omega
  · exact .inr (.inr ⟨slot, rfl⟩)

/-- An idle salon never refuses it, unless the services run past the end of the calendar. -/
theorem OneSlot.idle (h : OneSlot form date m)
    (herror : checkBooking 0 salonId none (fun _ => []) form = .error refusal) :
    ¬ refusal.Expected := by
  rcases h.refused herror with ⟨-, hpast⟩ | ⟨e, rfl, -⟩ | ⟨slot, -, hfull⟩
  · exact absurd hpast (Nat.not_lt_zero _)
  · exact not_expected_raised e
  · have hworkers := effectiveWorkers_pos none
    simp only [List.flatMap_nil, List.count_nil] at hfull
    omega

/-- Two clock times joined by a comma are no clock time. -/
theorem checkBooking_joined {t u : Text} {ts : List Text}
    (htime : form.slotTime = some (joinComma (t :: u :: ts)))
    (hdate : form.slotDate = some (isoDate date)) (hservices : form.selectedServices ≠ [])
    (hpriced : leZero (totalPriceField form.totalPrice) = false) :
    checkBooking now salonId workerCount paid form =
      .error (.flash "Invalid date or time!".toList) := by
  have hcomma : ',' ∈ isoDate date ++ ' ' :: joinComma (t :: u :: ts) := by
    have hmem := comma_mem_joinComma t u ts
    simp [hmem]
  have hunread := strptimeDateClock_foreign hcomma (by decide) (by decide) (by decide) (by decide)
  have hne : joinComma (t :: u :: ts) ≠ [] := List.ne_nil_of_mem (comma_mem_joinComma t u ts)
  simp only [checkBooking, htime, hdate, Option.getD_some, hunread]
  simp [isoDate_ne_nil, hne, hservices, hpriced]

end Server

section Clicks
variable {p : SlotPicker} {date : Date} {selectedServices : List Text} {totalPrice t : Text}

theorem oneSlot_form {m : Nat} (hconsistent : p.Consistent)
    (hdate : p.page.dateInput = isoDate date) (hone : p.selectedSlots = [hhmm m])
    (hearly : m + 30 ≤ 1290) (hservices : selectedServices ≠ [])
    (hpriced : leZero (totalPriceField (some totalPrice)) = false) :
    OneSlot (p.form selectedServices totalPrice) date m where
  date := congrArg some hdate
  time := by
    change some p.hiddenTimeInput = _
    rw [hconsistent.hidden, hone]
    simp [joinComma]
  early := hearly
  services := hservices
  priced := hpriced

/-- With one slot highlighted, the server books it alone when there is one service. -/
theorem booked_iff_one {m : Nat} (hconsistent : p.Consistent)
    (hform : OneSlot (p.form selectedServices totalPrice) date m)
    (hone : p.selectedSlots = [hhmm m]) :
    BookedAsPicked p selectedServices totalPrice ↔ selectedServices.length = 1 := by
  constructor
  · intro hbooked
    cases hres : checkBooking 0 0 none (fun _ => []) (p.form selectedServices totalPrice) with
    | error refusal => exact absurd (hbooked.refused _ _ _ _ _ hres) (hform.idle hres)
    | ok booking =>
      have hlabels := hform.labels hres
      by_contra hmany
      have hlong : 1 < selectedServices.length := by
        have hne := List.length_pos_iff.mpr hform.services
        change 0 < selectedServices.length at hne
        omega
      -- the second half hour is booked, but not highlighted
      have hsecond : hhmm (m + 30) ∈ splitComma booking.slotTime := by
        rw [hlabels]
        exact mem_slotLabels.mpr ⟨1, hlong, rfl⟩
      have hshown := (hbooked.booked _ _ _ _ _ hres _).mp hsecond
      rw [← hconsistent.shown, hone, List.mem_singleton, hhmm_eq_iff] at hshown
      omega
  · intro hlength
    constructor
    · intro now salonId workerCount paid booking hok l
      rw [hform.labels hok, ← hconsistent.shown, hone]
      change l ∈ slotLabels m selectedServices.length ↔ _
      rw [hlength, slotLabels_succ]
      rfl
    · intro now salonId workerCount paid refusal herror
      exact hform.checked hlength herror

/-- Two highlighted slots are refused as an invalid time, whatever else is posted. -/
theorem not_booked_of_two {u : Text} {ts : List Text} (hconsistent : p.Consistent)
    (hdate : p.page.dateInput = isoDate date) (hslots : p.selectedSlots = t :: u :: ts)
    (hservices : selectedServices ≠ [])
    (hpriced : leZero (totalPriceField (some totalPrice)) = false) :
    ¬ BookedAsPicked p selectedServices totalPrice := by
  intro hbooked
  have htime : (p.form selectedServices totalPrice).slotTime =
      some (joinComma (t :: u :: ts)) := by
    rw [← hslots, ← hconsistent.hidden]
    rfl
  have hjoined : checkBooking 0 0 none (fun _ => []) (p.form selectedServices totalPrice) =
      .error (.flash "Invalid date or time!".toList) :=
    checkBooking_joined htime (congrArg some hdate) hservices hpriced
  exact not_expected_invalid (hbooked.refused _ _ _ _ _ hjoined)

/-- What the user picked is what the server books, exactly when one service is checked and
the posted total is not `<= 0`. -/
theorem picked_slots_booked (h : p.Untouched) (ks : List Nat)
    (hsubmits : (p.clicks ks).submits = true) (hdate : p.page.dateInput = isoDate date)
    (hservices : selectedServices.length = p.page.selectedServiceCount) (totalPrice : Text) :
    BookedAsPicked (p.clicks ks) selectedServices totalPrice ↔
      selectedServices.length = 1 ∧ leZero (totalPriceField (some totalPrice)) = false := by
  have hconsistent := SlotPicker.clicks_consistent h.consistent ks
  rw [← SlotPicker.clicks_page ks] at hdate hservices
  generalize p.clicks ks = q at *
  simp only [SlotPicker.submits, Bool.and_eq_true, bne_iff_ne, Bool.not_eq_true',
    List.isEmpty_eq_false_iff] at hsubmits
  have hne : selectedServices ≠ [] := by
    rintro rfl
    exact hsubmits.1 hservices.symm
  cases hpriced : leZero (totalPriceField (some totalPrice)) with
  | true =>
    have hunpriced : ¬ BookedAsPicked q selectedServices totalPrice := fun hbooked =>
      not_expected_fields (hbooked.refused 0 0 none (fun _ => []) _ (checkBooking_unpriced hpriced))
    simp [hunpriced]
  | false =>
    rw [and_iff_left rfl]
    cases hslots : q.selectedSlots with
    | nil =>
      rw [hconsistent.hidden, hslots] at hsubmits
      exact absurd rfl hsubmits.2
    | cons t ts =>
      cases ts with
      | nil =>
        obtain ⟨m, hearly, rfl⟩ := hconsistent.slot (by rw [hslots]; exact List.mem_cons_self)
        exact booked_iff_one hconsistent
          (oneSlot_form hconsistent hdate hslots hearly hne hpriced) hslots
      | cons u ts =>
        have hlimit := hconsistent.limit
        rw [hslots, ← hservices] at hlimit
        simp only [List.length_cons] at hlimit
        have hrefused := not_booked_of_two hconsistent hdate hslots hne hpriced
        constructor
        · intro hbooked
          exact absurd hbooked hrefused
        · intro hlength
          omega

end Clicks

/-- The booking page on the first of January 2030, with some services checked. -/
def bookingPage (serviceCount : Nat) : SlotPicker where
  page :=
    { dateInput := "2030-01-01".toList
      todayDate := "2030-01-01".toList
      currentMinutes := 0
      selectedServiceCount := serviceCount }
  buttons := slotTimes.map fun time => { time }

theorem bookingPage_untouched (serviceCount : Nat) : (bookingPage serviceCount).Untouched where
  times := by
    change (slotTimes.map fun time => ({ time } : SlotButton)).map SlotButton.time = slotTimes
    rw [List.map_map]
    exact List.map_id slotTimes
  unselected := by
    intro btn hbtn
    obtain ⟨time, -, rfl⟩ := List.mem_map.mp hbtn
    rfl
  noSlots := rfl
  noTime := rfl

theorem bookingPage_date (serviceCount : Nat) :
    (bookingPage serviceCount).page.dateInput = isoDate ⟨2030, 1, 1, by decide⟩ := by
  change "2030-01-01".toList = _
  decide +kernel

/-- Ten o'clock for one service. -/
theorem picked_slots_booked_ten :
    BookedAsPicked ((bookingPage 1).clicks [6]) ["1".toList] "100".toList :=
  (picked_slots_booked (bookingPage_untouched 1) [6] (by decide +kernel) (bookingPage_date 1) rfl
    _).mpr ⟨rfl, by decide +kernel⟩

/-- Ten o'clock and half past ten for two services. -/
theorem picked_slots_refused : ¬ ∀ (p : SlotPicker) (ks : List Nat) (date : Date)
    (selectedServices : List Text) (totalPrice : Text), p.Untouched →
    (p.clicks ks).submits = true → p.page.dateInput = isoDate date →
    selectedServices.length = p.page.selectedServiceCount →
    leZero (totalPriceField (some totalPrice)) = false →
    BookedAsPicked (p.clicks ks) selectedServices totalPrice := by
  intro h
  have hbooked := h (bookingPage 2) [6, 7] _ ["1".toList, "2".toList] "150".toList
    (bookingPage_untouched 2) (by decide +kernel) (bookingPage_date 2) rfl (by decide +kernel)
  have hreply : checkBooking 0 1 none (fun _ => [])
      (((bookingPage 2).clicks [6, 7]).form ["1".toList, "2".toList] "150".toList) =
      .error (.flash "Invalid date or time!".toList) := by decide +kernel
  exact not_expected_invalid (hbooked.refused _ _ _ _ _ hreply)

end Gloora
