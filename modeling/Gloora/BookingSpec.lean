import Gloora.Booking

/-!
# What the booking checks decide

The labels `generate_required_slots` returns are the half hours after the start, counting
a label in the dictionary counts its occurrences in the rows, and `checkBooking` accepts
exactly the forms of `Accepted` and refuses the others for a reason of `Refused`.
-/

namespace Gloora
set_option autoImplicit false

open PyText Binary64 Calendar

/-- The labels of `n` consecutive half hours from minute `m` of the day. -/
def slotLabels (m n : Nat) : List Text := (List.range n).map fun i => hhmm (m + 30 * i)

@[simp] theorem slotLabels_length (m n : Nat) : (slotLabels m n).length = n := by
  simp [slotLabels]

theorem mem_slotLabels {m n : Nat} {l : Text} :
    l ∈ slotLabels m n ↔ ∃ i < n, l = hhmm (m + 30 * i) := by
  simp [slotLabels, eq_comm]

theorem slotLabels_succ (m n : Nat) :
    slotLabels m (n + 1) = hhmm m :: slotLabels (m + 30) n := by
  simp only [slotLabels, List.range_succ_eq_map, List.map_cons, List.map_map, Nat.mul_zero,
    Nat.add_zero, List.cons.injEq, true_and]
  apply List.map_congr_left
  intro i _
  simp only [Function.comp_apply, Nat.succ_eq_add_one]
  congr 1
  omega

theorem slotLabels_getElem? {m n i : Nat} (hi : i < n) :
    (slotLabels m n)[i]? = some (hhmm (m + 30 * i)) := by
  simp [slotLabels, hi]

/-- Two labels agree when the half hours are a whole number of days apart. -/
theorem slotLabels_nodup_iff {m n : Nat} : (slotLabels m n).Nodup ↔ n ≤ 48 := by
  constructor
  · intro h
    by_contra hlt
    have hfirst : (slotLabels m n)[0]? = some (hhmm (m + 30 * 0)) :=
      slotLabels_getElem? (by omega)
    have hwrapped : (slotLabels m n)[48]? = some (hhmm (m + 30 * 48)) :=
      slotLabels_getElem? (by omega)
    have hsame : hhmm (m + 30 * 0) = hhmm (m + 30 * 48) := hhmm_eq_iff.mpr (by omega)
    rw [hsame, ← hwrapped] at hfirst
    have hlength : 0 < (slotLabels m n).length := by
      rw [slotLabels_length]
      omega
    have hindex := (List.getElem?_inj hlength h).mp hfirst
    omega
  · intro h
    apply List.Nodup.map_on _ List.nodup_range
    intro i hi j hj hij
    rw [List.mem_range] at hi hj
    have hmod := hhmm_eq_iff.mp hij
    omega

theorem comma_not_mem_slotLabels {m n : Nat} {l : Text} (h : l ∈ slotLabels m n) : ',' ∉ l := by
  obtain ⟨i, _, rfl⟩ := mem_slotLabels.mp h
  exact comma_not_mem_hhmm _

theorem splitComma_slotLabels (m : Nat) {n : Nat} (hn : n ≠ 0) :
    splitComma (joinComma (slotLabels m n)) = slotLabels m n := by
  apply splitComma_joinComma
  · intro h
    have hlen := congrArg List.length h
    simp [hn] at hlen
  · exact fun l hl => comma_not_mem_slotLabels hl

theorem mapM_guard {α β ε : Type} (p : α → Prop) [DecidablePred p] (g : α → β) (e : ε)
    (l : List α) (ys : List β) :
    (l.mapM fun a => if p a then Except.ok (g a) else Except.error e) = .ok ys ↔
      (∀ a ∈ l, p a) ∧ ys = l.map g := by
  induction l generalizing ys with
  | nil => simp [pure, Except.pure, eq_comm]
  | cons a l ih =>
    rw [List.mapM_cons]
    by_cases ha : p a
    · cases hrest : l.mapM fun a => if p a then Except.ok (g a) else Except.error e with
      | error e' =>
        have hfail : ¬ ∀ b ∈ l, p b := by
          intro hall
          have hok := (ih (l.map g)).mpr ⟨hall, rfl⟩
          rw [hrest] at hok
          cases hok
        simp [bind, Except.bind, ha, hfail]
      | ok zs =>
        obtain ⟨hall, rfl⟩ := (ih zs).mp hrest
        have hall' : ∀ b ∈ a :: l, p b := List.forall_mem_cons.mpr ⟨ha, hall⟩
        simp only [bind, Except.bind, pure, Except.pure, if_pos ha, Except.ok.injEq, List.map_cons]
        exact ⟨fun h => ⟨hall', h.symm⟩, fun h => h.2.symm⟩
    · simp [bind, Except.bind, ha]

theorem mapM_guard_error {α β ε : Type} {p : α → Prop} [DecidablePred p] {g : α → β} {e e' : ε}
    {l : List α}
    (h : (l.mapM fun a => if p a then Except.ok (g a) else Except.error e) = .error e') :
    e' = e := by
  induction l with
  | nil => cases h
  | cons a l ih =>
    rw [List.mapM_cons] at h
    by_cases ha : p a
    · cases hrest : l.mapM fun a => if p a then Except.ok (g a) else Except.error e with
      | error e'' =>
        rw [if_pos ha, hrest] at h
        obtain rfl := Except.error.inj h
        exact ih hrest
      | ok ys =>
        rw [if_pos ha, hrest] at h
        cases h
    · rw [if_neg ha] at h
      exact (Except.error.inj h).symm

theorem slotAt_eq (m : Nat) : slotAt m = fun i => if clockInstant m + i * 30 < endOfTime then
    Except.ok (hhmm (clockInstant m + i * 30)) else Except.error "OverflowError".toList := by
  funext i
  unfold slotAt addMinutes
  by_cases hlt : clockInstant m + i * 30 < endOfTime <;> simp only [hlt, if_true, if_false]

theorem generateRequiredSlots_ok {startTime : Text} {n : Nat} {slots : List Text} :
    generateRequiredSlots startTime n = .ok slots ↔
      ∃ m, strptimeClock startTime = some m ∧
        (∀ i < n, clockInstant m + i * 30 < endOfTime) ∧ slots = slotLabels m n := by
  unfold generateRequiredSlots
  cases hclock : strptimeClock startTime with
  | none => simp
  | some m =>
    have hlabels : (List.range n).map (fun i => hhmm (clockInstant m + i * 30)) =
        slotLabels m n := by
      simp only [slotLabels, hhmm_clockInstant, Nat.mul_comm]
    simp only [slotAt_eq, mapM_guard, hlabels, List.mem_range, Option.some.injEq, exists_eq_left']

section Counting

/-- The labels a `slot_time` column contributes to the dictionary. -/
def rowLabels : Option Text → List Text
  | none | some [] => []
  | some slotTime => splitComma slotTime

theorem rowLabels_some {t : Text} (h : t ≠ []) : rowLabels (some t) = splitComma t := by
  cases t with
  | nil => exact absurd rfl h
  | cons c cs => rfl

theorem bookedCount_eq (rows : List (Option Text)) :
    bookedCount rows = Tally.bumpAll [] (rows.flatMap rowLabels) := by
  unfold bookedCount
  generalize ([] : List (Text × Nat)) = counts
  induction rows generalizing counts with
  | nil => rfl
  | cons row rows ih =>
    rw [List.foldl_cons, ih, List.flatMap_cons, Tally.bumpAll, Tally.bumpAll, List.foldl_append]
    congr 1
    cases row with
    | none => rfl
    | some t => cases t <;> rfl

theorem get_bookedCount (rows : List (Option Text)) (l : Text) :
    Tally.get (bookedCount rows) l = (rows.flatMap rowLabels).count l := by
  rw [bookedCount_eq, Tally.get_bumpAll]
  simp [Tally.get]

theorem firstUnavailable_none {rows : List (Option Text)} {workers : Int} {required : List Text} :
    firstUnavailable rows workers required = none ↔
      ∀ l ∈ required, ((rows.flatMap rowLabels).count l : Int) < workers := by
  simp [firstUnavailable, get_bookedCount]

theorem effectiveWorkers_pos (workerCount : Option Int) : 1 ≤ effectiveWorkers workerCount :=
  le_max_right _ _

end Counting

/-- The forms POST /book-slot accepts, and the booking it stores for them: `date` and `t` are
read from date and time together, `m` from the time alone. -/
structure Accepted (now salonId : Nat) (workerCount : Option Int)
    (paid : Text → List (Option Text)) (form : BookForm) (booking : PendingBooking)
    (date : Date) (t m : Nat) : Prop where
  services : form.selectedServices ≠ []
  positive : leZero (totalPriceField form.totalPrice) = false
  start : strptimeDateClock (form.slotDate.getD [] ++ ' ' :: form.slotTime.getD []) =
    some (date, t)
  future : now ≤ instantOf date t
  clock : strptimeClock (form.slotTime.getD []) = some m
  representable : ∀ i < form.selectedServices.length, clockInstant m + i * 30 < endOfTime
  closing : (m + 30) % 1440 ≤ 1320
  free : ∀ l ∈ slotLabels m form.selectedServices.length,
    (((paid (form.slotDate.getD [])).flatMap rowLabels).count l : Int) <
      effectiveWorkers workerCount
  booking : booking =
    { salonId
      slotDate := form.slotDate.getD []
      slotTime := joinComma (slotLabels m form.selectedServices.length)
      startTime := hhmm m
      endTime := hhmm (m + 30)
      selectedServices := form.selectedServices
      serviceTotal := totalPriceField form.totalPrice
      platformFee := form.selectedServices.length * 10 }

theorem rowLabels_slotLabels (m : Nat) {n : Nat} (hn : n ≠ 0) :
    rowLabels (some (joinComma (slotLabels m n))) = slotLabels m n := by
  rw [rowLabels_some, splitComma_slotLabels m hn]
  intro hnil
  have hsplit := splitComma_slotLabels m hn
  rw [hnil] at hsplit
  have hmem : ([] : Text) ∈ slotLabels m n := hsplit ▸ List.mem_singleton_self _
  obtain ⟨i, -, hi⟩ := mem_slotLabels.mp hmem
  simp [hhmm] at hi

section Accepted
variable {now salonId : Nat} {workerCount : Option Int} {paid : Text → List (Option Text)}
  {form : BookForm} {booking : PendingBooking} {date : Date} {t m : Nat}

theorem Accepted.length_ne (h : Accepted now salonId workerCount paid form booking date t m) :
    form.selectedServices.length ≠ 0 := by
  simpa using h.services

theorem Accepted.labels (h : Accepted now salonId workerCount paid form booking date t m) :
    rowLabels (some booking.slotTime) = slotLabels m form.selectedServices.length := by
  rw [h.booking]
  exact rowLabels_slotLabels m h.length_ne

end Accepted

theorem strptimeClock_nil : strptimeClock [] = none := by decide

theorem strptimeDateClock_blank (s : Text) : strptimeDateClock ([] ++ ' ' :: s) = none := by
  have hyear : yearField (' ' :: s) = [] := by
    have hblank : digitVal? ' ' = none := by decide
    simp [yearField, pair, digit, Matching.andThen, Matching.char_cons, hblank]
  have hmatch : dateClockField (' ' :: s) = [] := Matching.andThen_nil hyear _
  simp [strptimeDateClock, Matching.fullMatch, hmatch]

/-- Why POST /book-slot refuses a form, with the reply it gives for each reason. -/
inductive Refused (now : Nat) (workerCount : Option Int) (paid : Text → List (Option Text))
    (form : BookForm) : Refusal → Prop where
  | fields (h : form.slotDate.getD [] = [] ∨ form.slotTime.getD [] = [] ∨
      form.selectedServices = [] ∨ leZero (totalPriceField form.totalPrice) = true) :
      Refused now workerCount paid form
        (.flash "Please select date, time and at least one service!".toList)
  | invalid (h : strptimeDateClock (form.slotDate.getD [] ++ ' ' :: form.slotTime.getD []) = none) :
      Refused now workerCount paid form (.flash "Invalid date or time!".toList)
  | past {date : Date} {t : Nat} (hstart : strptimeDateClock
      (form.slotDate.getD [] ++ ' ' :: form.slotTime.getD []) = some (date, t))
      (hpast : instantOf date t < now) :
      Refused now workerCount paid form (.flash "You cannot book past time slots!".toList)
  | raised {e : Text} (hslots : ∀ first later, generateRequiredSlots (form.slotTime.getD [])
      form.selectedServices.length ≠ .ok (first :: later)) :
      Refused now workerCount paid form (.raised e)
  | closing {m : Nat} (hclock : strptimeClock (form.slotTime.getD []) = some m)
      (hclosing : 1320 < (m + 30) % 1440) :
      Refused now workerCount paid form
        (.flash "Selected services exceed salon closing time (10:00 PM).".toList)
  | taken {m : Nat} {slot : Text} (hclock : strptimeClock (form.slotTime.getD []) = some m)
      (hslot : slot ∈ slotLabels m form.selectedServices.length)
      (hfull : effectiveWorkers workerCount ≤
        (((paid (form.slotDate.getD [])).flatMap rowLabels).count slot : Int)) :
      Refused now workerCount paid form (.flash (unavailable slot))

theorem unavailable_ne (slot : Text) {message : Text} (h : message.head? ≠ some 'T') :
    unavailable slot ≠ message := by
  rintro rfl
  exact h rfl

/-- What is left of the checks once the slots are there: closing time and the paid rows. -/
theorem checkBooking_of_slots {now salonId : Nat} {workerCount : Option Int}
    {paid : Text → List (Option Text)} {form : BookForm} {date : Date} {t m : Nat}
    (hfields : ((form.slotDate.getD []).isEmpty || (form.slotTime.getD []).isEmpty ||
      form.selectedServices.isEmpty || leZero (totalPriceField form.totalPrice)) = false)
    (hstart : strptimeDateClock (form.slotDate.getD [] ++ ' ' :: form.slotTime.getD []) =
      some (date, t))
    (hfuture : now ≤ instantOf date t) (hclock : strptimeClock (form.slotTime.getD []) = some m)
    (hfits : ∀ i < form.selectedServices.length, clockInstant m + i * 30 < endOfTime) :
    checkBooking now salonId workerCount paid form =
      if 1320 < (m + 30) % 1440 then
        .error (.flash "Selected services exceed salon closing time (10:00 PM).".toList)
      else
        match firstUnavailable (paid (form.slotDate.getD [])) (effectiveWorkers workerCount)
            (slotLabels m form.selectedServices.length) with
        | some slot => .error (.flash (unavailable slot))
        | none => .ok
            { salonId
              slotDate := form.slotDate.getD []
              slotTime := joinComma (slotLabels m form.selectedServices.length)
              startTime := hhmm m
              endTime := hhmm (m + 30)
              selectedServices := form.selectedServices
              serviceTotal := totalPriceField form.totalPrice
              platformFee := form.selectedServices.length * 10 } := by
  have hm : m < 1440 := strptimeClock_lt hclock
  have hpast : ¬ instantOf date t < now := Nat.not_lt.mpr hfuture
  have hslots : generateRequiredSlots (form.slotTime.getD []) form.selectedServices.length =
      .ok (slotLabels m form.selectedServices.length) :=
    generateRequiredSlots_ok.mpr ⟨m, hclock, hfits, rfl⟩
  cases hn : form.selectedServices.length with
  | zero => simp [List.length_eq_zero_iff.mp hn] at hfields
  | succ n =>
    rw [hn, slotLabels_succ] at hslots
    rw [slotLabels_succ]
    unfold checkBooking
    simp only [hfields, Bool.false_eq_true, if_false, hstart, hpast, hn, hslots,
      strptimeClock_hhmm, Nat.mod_eq_of_lt hm, hhmm_clockInstant]
    exact if_congr (closing_lt_hhmm _) rfl rfl

/-- All that the checks can do: refuse with a message, raise at the slots of a form that passed
the checks before them, or accept. -/
theorem checkBooking_cases (now salonId : Nat) (workerCount : Option Int)
    (paid : Text → List (Option Text)) (form : BookForm) :
    (∃ message, checkBooking now salonId workerCount paid form = .error (.flash message) ∧
      Refused now workerCount paid form (.flash message)) ∨
    (∃ e date t, checkBooking now salonId workerCount paid form = .error (.raised e) ∧
      ((form.slotDate.getD []).isEmpty || (form.slotTime.getD []).isEmpty ||
        form.selectedServices.isEmpty || leZero (totalPriceField form.totalPrice)) = false ∧
      strptimeDateClock (form.slotDate.getD [] ++ ' ' :: form.slotTime.getD []) = some (date, t) ∧
      now ≤ instantOf date t ∧
      ¬ ∃ m, strptimeClock (form.slotTime.getD []) = some m ∧
        ∀ i < form.selectedServices.length, clockInstant m + i * 30 < endOfTime) ∨
    ∃ booking date t m, checkBooking now salonId workerCount paid form = .ok booking ∧
      Accepted now salonId workerCount paid form booking date t m := by
  by_cases hfields : ((form.slotDate.getD []).isEmpty || (form.slotTime.getD []).isEmpty ||
      form.selectedServices.isEmpty || leZero (totalPriceField form.totalPrice)) = true
  · refine .inl ⟨_, by unfold checkBooking; simp only [hfields, if_true], .fields ?_⟩
    simpa only [Bool.or_eq_true, List.isEmpty_iff, or_assoc] using hfields
  rw [Bool.not_eq_true] at hfields
  cases hstart : strptimeDateClock (form.slotDate.getD [] ++ ' ' :: form.slotTime.getD []) with
  | none =>
    refine .inl ⟨_, ?_, .invalid hstart⟩
    unfold checkBooking
    simp only [hfields, Bool.false_eq_true, if_false, hstart]
  | some start =>
    obtain ⟨date, t⟩ := start
    by_cases hpast : instantOf date t < now
    · refine .inl ⟨_, ?_, .past hstart hpast⟩
      unfold checkBooking
      simp only [hfields, Bool.false_eq_true, if_false, hstart, hpast, if_true]
    have hfuture : now ≤ instantOf date t := Nat.not_lt.mp hpast
    by_cases hslots : ∃ m, strptimeClock (form.slotTime.getD []) = some m ∧
        ∀ i < form.selectedServices.length, clockInstant m + i * 30 < endOfTime
    · obtain ⟨m, hclock, hfits⟩ := hslots
      rw [checkBooking_of_slots hfields hstart hfuture hclock hfits]
      split
      · rename_i hclosing
        exact .inl ⟨_, rfl, .closing hclock hclosing⟩
      rename_i hclosing
      split
      · rename_i slot htaken
        have hfull := List.find?_some htaken
        rw [decide_eq_true_eq, get_bookedCount] at hfull
        exact .inl ⟨_, rfl, .taken hclock (List.mem_of_find?_eq_some htaken) hfull⟩
      · rename_i hfree
        simp only [Bool.or_eq_false_iff, List.isEmpty_eq_false_iff] at hfields
        exact .inr (.inr ⟨_, date, t, m, rfl, hfields.1.2, hfields.2, hstart, hfuture, hclock,
          hfits, by omega, firstUnavailable_none.mp hfree, rfl⟩)
    · cases hgen : generateRequiredSlots (form.slotTime.getD []) form.selectedServices.length with
      | ok slots =>
        obtain ⟨m, hclock, hfits, -⟩ := generateRequiredSlots_ok.mp hgen
        exact absurd ⟨m, hclock, hfits⟩ hslots
      | error e =>
        refine .inr (.inl ⟨e, date, t, ?_, hfields, rfl, hfuture, hslots⟩)
        unfold checkBooking
        simp only [hfields, Bool.false_eq_true, if_false, hstart, hpast, hgen]

theorem accepted_of_checkBooking {now salonId : Nat} {workerCount : Option Int}
    {paid : Text → List (Option Text)} {form : BookForm} {booking : PendingBooking}
    (h : checkBooking now salonId workerCount paid form = .ok booking) :
    ∃ date t m, Accepted now salonId workerCount paid form booking date t m := by
  rcases checkBooking_cases now salonId workerCount paid form with
    ⟨_, herror, -⟩ | ⟨_, _, _, herror, -⟩ | ⟨booking', date, t, m, hok, haccepted⟩
  · rw [herror] at h
    cases h
  · rw [herror] at h
    cases h
  · rw [hok] at h
    obtain rfl := Except.ok.inj h
    exact ⟨date, t, m, haccepted⟩

theorem Accepted.dated {now salonId : Nat} {workerCount : Option Int}
    {paid : Text → List (Option Text)} {form : BookForm} {booking : PendingBooking} {date : Date}
    {t m : Nat} (h : Accepted now salonId workerCount paid form booking date t m) :
    form.slotDate.getD [] ≠ [] ∧ form.slotTime.getD [] ≠ [] := by
  constructor
  · intro hnil
    have hstart := h.start
    rw [hnil, strptimeDateClock_blank] at hstart
    cases hstart
  · intro hnil
    have hclock := h.clock
    rw [hnil, strptimeClock_nil] at hclock
    cases hclock

theorem Accepted.checkBooking {now salonId : Nat} {workerCount : Option Int}
    {paid : Text → List (Option Text)} {form : BookForm} {booking : PendingBooking} {date : Date}
    {t m : Nat} (h : Accepted now salonId workerCount paid form booking date t m) :
    Gloora.checkBooking now salonId workerCount paid form = .ok booking := by
  obtain ⟨hdate, htime⟩ := h.dated
  have hfields : ((form.slotDate.getD []).isEmpty || (form.slotTime.getD []).isEmpty ||
      form.selectedServices.isEmpty || leZero (totalPriceField form.totalPrice)) = false := by
    simp [hdate, htime, h.services, h.positive]
  rw [checkBooking_of_slots hfields h.start h.future h.clock h.representable,
    if_neg (Nat.not_lt.mpr h.closing), firstUnavailable_none.mpr h.free, h.booking]

theorem checkBooking_ok {now salonId : Nat} {workerCount : Option Int}
    {paid : Text → List (Option Text)} {form : BookForm} {booking : PendingBooking} :
    checkBooking now salonId workerCount paid form = .ok booking ↔
      ∃ date t m, Accepted now salonId workerCount paid form booking date t m :=
  ⟨accepted_of_checkBooking, fun ⟨_, _, _, h⟩ => h.checkBooking⟩

theorem checkBooking_error {now salonId : Nat} {workerCount : Option Int}
    {paid : Text → List (Option Text)} {form : BookForm} {refusal : Refusal}
    (h : checkBooking now salonId workerCount paid form = .error refusal) :
    Refused now workerCount paid form refusal := by
  rcases checkBooking_cases now salonId workerCount paid form with
    ⟨_, hflash, hrefused⟩ | ⟨_, _, _, hraised, -, -, -, hslots⟩ | ⟨_, _, _, _, hok, -⟩
  · rw [hflash] at h
    obtain rfl := Except.error.inj h
    exact hrefused
  · rw [hraised] at h
    obtain rfl := Except.error.inj h
    refine .raised fun first later hok => hslots ?_
    obtain ⟨m, hclock, hfits, -⟩ := generateRequiredSlots_ok.mp hok
    exact ⟨m, hclock, hfits⟩
  · rw [hok] at h
    cases h

end Gloora
