import Gloora.Lib.Moments
import Gloora.Availability
import Gloora.HalfHours

/-!
# The date and time fields of the booking form

POST /book-slot reads the time twice: behind the date, where `strptime` skips white space and
its exception is caught, and alone, where it does not and is not.
-/

namespace Gloora
set_option autoImplicit false

open PyText Binary64 Calendar

/-- `f"{slot_date} {slot_time}"` -/
def BookForm.combined (form : BookForm) : Text :=
  form.slotDate.getD [] ++ ' ' :: form.slotTime.getD []

/-- The form passes the checks in front of the slots, and starts at minute `t` of `date`. -/
structure Readable (now : Nat) (form : BookForm) (date : Date) (t : Nat) : Prop where
  dated : form.slotDate.getD [] ≠ []
  timed : form.slotTime.getD [] ≠ []
  services : form.selectedServices ≠ []
  positive : leZero (totalPriceField form.totalPrice) = false
  start : strptimeDateClock form.combined = some (date, t)
  future : now ≤ instantOf date t

/-- Wherever the time is read behind the date, it is read alone as the same minute. -/
def BookForm.RereadsTime (form : BookForm) : Prop :=
  ∀ date t, strptimeDateClock form.combined = some (date, t) →
    strptimeClock (form.slotTime.getD []) = some t

/-- A redirect with a message, or to the payment of a stored booking. -/
def Outcome.Answers (o : Outcome) (salonId : Nat) : Prop :=
  (∃ endpoint id, o.body = .redirect endpoint id ∧ o.flashes ≠ []) ∨
    ∃ booking, o.Stores salonId booking

section Checks
variable {now salonId : Nat} {workerCount : Option Int} {paid : Text → List (Option Text)}
  {form : BookForm} {date : Date} {t : Nat}

theorem Readable.fields (h : Readable now form date t) :
    ((form.slotDate.getD []).isEmpty || (form.slotTime.getD []).isEmpty ||
      form.selectedServices.isEmpty || leZero (totalPriceField form.totalPrice)) = false := by
  simp [h.dated, h.timed, h.services, h.positive]

/-- The only exceptions of the checks are those of the slots of a form that passed the checks
before them. -/
theorem checkBooking_raised :
    (∃ e, checkBooking now salonId workerCount paid form = .error (.raised e)) ↔
      ∃ date t, Readable now form date t ∧ ¬ ∃ m, strptimeClock (form.slotTime.getD []) = some m ∧
        SlotsFit m form.selectedServices.length := by
  constructor
  · rintro ⟨e, h⟩
    rcases checkBooking_cases now salonId workerCount paid form with
      ⟨_, hflash, -⟩ | ⟨_, date, t, -, hfields, hstart, hfuture, hslots⟩ | ⟨_, _, _, _, hok, -⟩
    · rw [hflash] at h
      cases h
    · simp only [Bool.or_eq_false_iff, List.isEmpty_eq_false_iff] at hfields
      obtain ⟨⟨⟨hdate, htime⟩, hservices⟩, hpositive⟩ := hfields
      exact ⟨date, t, ⟨hdate, htime, hservices, hpositive, hstart, hfuture⟩, hslots⟩
    · rw [hok] at h
      cases h
  · rintro ⟨date, t, hreadable, hnot⟩
    have hpast : ¬ instantOf date t < now := Nat.not_lt.mpr hreadable.future
    have hstart := hreadable.start
    unfold BookForm.combined at hstart
    cases hslots : generateRequiredSlots (form.slotTime.getD []) form.selectedServices.length with
    | ok slots =>
      obtain ⟨m, hclock, hfits, -⟩ := generateRequiredSlots_ok.mp hslots
      exact absurd ⟨m, hclock, hfits⟩ hnot
    | error e =>
      refine ⟨e, ?_⟩
      unfold checkBooking
      simp only [hreadable.fields, Bool.false_eq_true, if_false, hstart, hpast, hslots]

end Checks

section Handler
variable {env : Env} {db : Db} {s : Session} {salonId : Nat} {salon : Salon} {form : BookForm}

theorem bookSlotForSalon_answers_iff (husername : s.username.isSome) (huserId : s.userId.isSome)
    (hsalon : db.salons.find? salonId = some salon) :
    (bookSlotForSalon env db s salonId (some form)).Answers salonId ↔
      ¬ ∃ e, checkBooking env.now salonId salon.workerCount (db.paidSlotTimes salonId) form =
        .error (.raised e) := by
  have hlogin : (s.username.isNone || s.userId.isNone) = false := by
    simp [husername, huserId]
  unfold bookSlotForSalon
  simp only [hlogin, Bool.false_eq_true, if_false, hsalon]
  cases hcheck : checkBooking env.now salonId salon.workerCount (db.paidSlotTimes salonId) form with
  | ok booking =>
    simp only [reduceCtorEq, exists_false, not_false_eq_true, iff_true]
    exact .inr ⟨booking, rfl, rfl⟩
  | error refusal =>
    cases refusal with
    | flash message =>
      simp only [Except.error.injEq, reduceCtorEq, exists_false, not_false_eq_true, iff_true]
      exact .inl ⟨_, _, rfl, List.cons_ne_nil _ _⟩
    | raised e =>
      simp only [Except.error.injEq, Refusal.raised.injEq, exists_eq', not_true_eq_false, iff_false]
      rintro (⟨_, _, hbody, -⟩ | ⟨_, hbody, -⟩)
      · cases hbody
      · cases hbody

/-- Behind a date the time may start with white space or hold the day; alone it may not. -/
theorem rereadsTime_iff : form.RereadsTime ↔ ∀ date t,
    strptimeDateClock form.combined = some (date, t) →
      ∀ c ∈ form.slotTime.getD [], ¬ isSpace c = true := by
  constructor
  · intro h date t hstart
    exact not_isSpace_of_strptimeClock (h date t hstart)
  · intro h date t hstart
    exact strptimeClock_of_dateClock hstart (h date t hstart)

/-- POST /book-slot of a user for a salon ends in a redirect, and reads the same time twice,
exactly when a time behind a readable date has no white space in it and the services end
within the calendar. -/
theorem booking_never_fails_iff (husername : s.username.isSome) (huserId : s.userId.isSome)
    (hsalon : db.salons.find? salonId = some salon) :
    ((bookSlotForSalon env db s salonId (some form)).Answers salonId ∧ form.RereadsTime) ↔
      ∀ date t, strptimeDateClock form.combined = some (date, t) →
        (∀ c ∈ form.slotTime.getD [], ¬ isSpace c = true) ∧
        (Readable env.now form date t → SlotsFit t form.selectedServices.length) := by
  rw [bookSlotForSalon_answers_iff husername huserId hsalon, checkBooking_raised]
  constructor
  · rintro ⟨hfits, hreread⟩ date t hstart
    refine ⟨rereadsTime_iff.mp hreread date t hstart, fun hreadable => ?_⟩
    by_contra hlong
    refine hfits ⟨date, t, hreadable, ?_⟩
    rintro ⟨m, hclock, hm⟩
    obtain rfl := Option.some.inj (hclock.symm.trans (hreread date t hstart))
    exact hlong hm
  · intro h
    have hreread : form.RereadsTime :=
      rereadsTime_iff.mpr fun date t hstart => (h date t hstart).1
    refine ⟨?_, hreread⟩
    rintro ⟨date, t, hreadable, hnot⟩
    exact hnot ⟨t, hreread date t hreadable.start, (h date t hreadable.start).2 hreadable⟩

end Handler

/-- One service at a time on the first day of 2030. -/
def asksAt (time : String) : BookForm where
  slotDate := some "2030-01-01".toList
  slotTime := some time.toList
  selectedServices := ["1".toList]
  totalPrice := some "100".toList

def opened : Sys := (play plain Sys.init (opening "1")).2

theorem opened_salon : ∃ salon, opened.db.salons.find? 1 = some salon :=
  Option.isSome_iff_exists.mp (by decide +kernel)

theorem booking_never_fails_iff_unpadded :
    (bookSlotForSalon (calmly 0 "order") opened.db (opened.cookie 1) 1
      (some (asksAt "9:5"))).Answers 1 ∧ (asksAt "9:5").RereadsTime := by
  obtain ⟨salon, hsalon⟩ := opened_salon
  have hsolid : ("9:5".toList.all fun c => !isSpace c) = true := by decide
  have hspace : ∀ c ∈ "9:5".toList, ¬ isSpace c = true := by
    intro c hc
    simpa using List.all_eq_true.mp hsolid c hc
  apply (booking_never_fails_iff (by decide +kernel) (by decide +kernel) hsalon).mpr
  intro date t hstart
  refine ⟨hspace, fun _ i hi => ?_⟩
  have ht : t < 1440 := strptimeClock_lt (strptimeClock_of_dateClock hstart hspace)
  have hi' : i < 1 := hi
  unfold clockInstant endOfTime
  omega

/-- A blank in front of the time. -/
theorem blank_time_fails : ¬ ∀ (env : Env) (db : Db) (s : Session) (salonId : Nat) (salon : Salon)
    (form : BookForm), s.username.isSome → s.userId.isSome →
      db.salons.find? salonId = some salon →
        (bookSlotForSalon env db s salonId (some form)).Answers salonId := by
  intro h
  obtain ⟨salon, hsalon⟩ := opened_salon
  have hanswers := h (calmly 0 "order") opened.db (opened.cookie 1) 1 salon (asksAt " 10:00")
    (by decide +kernel) (by decide +kernel) hsalon
  have hbody : (bookSlotForSalon (calmly 0 "order") opened.db (opened.cookie 1) 1
      (some (asksAt " 10:00"))).body = .error "ValueError".toList := by decide +kernel
  rcases hanswers with ⟨_, _, hredirect, -⟩ | ⟨_, hredirect, -⟩
  · rw [hbody] at hredirect
    cases hredirect
  · rw [hbody] at hredirect
    cases hredirect

end Gloora
