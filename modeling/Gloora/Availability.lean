import Gloora.BookSlotPage
import Gloora.Ownership

/-!
# The page and the server agree on free slots

The script adds minutes and pads digits where the server adds `timedelta`s and formats
them. Before midnight both write the same labels, and both compare the same count with
the same number of workers.
-/

namespace Gloora
set_option autoImplicit false

open PyText Binary64 Calendar Keyed

section Labels

theorem number_pad2 {n : Nat} (h : n < 100) : number (pad2 n) = some n := by
  have hall : ∀ n < 100, number (pad2 n) = some n := by decide +kernel
  exact hall n h

theorem padStart2_eq {n : Nat} (h : n < 100) : padStart2 n = pad2 n := by
  have hall : ∀ n < 100, padStart2 n = pad2 n := by decide +kernel
  exact hall n h

theorem timeToMinutes_hhmm (t : Nat) : timeToMinutes (hhmm t) = some (t % 1440) := by
  have hcolon : digitVal? ':' = none := by decide
  have hsplit : (hhmm t).splitOn ':' = [pad2 (t % 1440 / 60), pad2 (t % 60)] := by
    rw [hhmm, List.splitOn_append_cons_self_of_not_mem (not_mem_pad2 _ hcolon),
      List.splitOn_eq_singleton (not_mem_pad2 _ hcolon)]
  have hhour : number (pad2 (t % 1440 / 60)) = some (t % 1440 / 60) := number_pad2 (by omega)
  have hminute : number (pad2 (t % 60)) = some (t % 60) := number_pad2 (by omega)
  simp only [timeToMinutes, hsplit, hhour, hminute, Option.bind_eq_bind, Option.bind_some,
    pure, Option.some.injEq]
  omega

theorem minutesToTime_eq {t : Nat} (h : t < 1440) : minutesToTime (some t) = hhmm t := by
  have hhour : t / 60 < 100 := by omega
  have hminute : t % 60 < 100 := by omega
  change padStart2 (t / 60) ++ ':' :: padStart2 (t % 60) = hhmm t
  rw [padStart2_eq hhour, padStart2_eq hminute, hhmm, Nat.mod_eq_of_lt h]

theorem getRequiredSlots_eq {m n : Nat} (h : m + 30 * n ≤ 1440) (hm : m < 1440) :
    getRequiredSlots (hhmm m) n = slotLabels m n := by
  unfold getRequiredSlots slotLabels
  rw [timeToMinutes_hhmm, Nat.mod_eq_of_lt hm]
  apply List.map_congr_left
  intro i hi
  have hi' : i < n := List.mem_range.mp hi
  rw [Option.map_some, minutesToTime_eq (by omega), Nat.mul_comm]

theorem getLast?_slotLabels (m n : Nat) :
    (slotLabels m (n + 1)).getLast? = some (hhmm (m + 30 * n)) := by
  simp [slotLabels, List.range_succ]

end Labels

/-- The request is answered by storing `booking`. -/
def Outcome.Stores (o : Outcome) (salonId : Nat) (booking : PendingBooking) : Prop :=
  o.body = .redirect "payment".toList (some salonId) ∧ o.session.pendingBooking = some booking

theorem stores_iff {env : Env} {db : Db} {s : Session} {salonId : Nat} {form : BookForm}
    {booking : PendingBooking} :
    (bookSlotForSalon env db s salonId (some form)).Stores salonId booking ↔
      ∃ salon, Books env db s salonId form salon booking := by
  constructor
  · rintro ⟨hbody, hpending⟩
    obtain ⟨-, ⟨salon, booking', hbooks, hsession, -⟩ | ⟨-, hne⟩⟩ :=
      bookSlotForSalon_cases env db s salonId form
    · rw [hsession] at hpending
      obtain rfl : booking' = booking := Option.some.inj hpending
      exact ⟨salon, hbooks⟩
    · exact absurd hbody hne
  · rintro ⟨salon, hbooks⟩
    have hlogin : (s.username.isNone || s.userId.isNone) = false := by
      simp [hbooks.username, hbooks.userId]
    unfold bookSlotForSalon
    simp only [hlogin, hbooks.row, hbooks.checked]
    exact ⟨rfl, rfl⟩

/-- The form sends what is chosen on the page: a date other than the page's today, the button
of minute `m`, and `n` services that end by closing time. -/
structure Chosen (page : BookSlotPage) (form : BookForm) (date : Date) (m n : Nat) : Prop where
  dateInput : page.dateInput = isoDate date
  notToday : page.todayDate ≠ isoDate date
  count : page.selectedServiceCount = n
  pos : 1 ≤ n
  closing : m + 30 * n ≤ 22 * 60
  slotDate : form.slotDate = some (isoDate date)
  slotTime : form.slotTime = some (hhmm m)
  services : form.selectedServices.length = n
  total : leZero (totalPriceField form.totalPrice) = false

section Agreement
variable {env : Env} {db : Db} {s t : Session} {salonId : Nat} {salon : Salon}
  {page : BookSlotPage} {form : BookForm} {date : Date} {m n : Nat}

theorem loadSlotStatus_eq (h : Chosen page form date m n)
    (hsalon : db.salons.find? salonId = some salon) :
    page.loadSlotStatus (getBookedSlots db t salonId (isoDate date)).body =
      { page with
        bookedSlots := bookedCount (db.paidSlotTimes salonId (isoDate date))
        workerCount := effectiveWorkers salon.workerCount } := by
  have hinput : page.dateInput.isEmpty = false := by
    rw [h.dateInput]
    rfl
  have hworkers := effectiveWorkers_pos salon.workerCount
  have hdefault : max (if effectiveWorkers salon.workerCount = 0 then 1
      else effectiveWorkers salon.workerCount) 1 = effectiveWorkers salon.workerCount := by
    rw [if_neg (by omega)]
    omega
  simp only [getBookedSlots, hsalon, BookSlotPage.loadSlotStatus, hinput, Bool.false_eq_true,
    if_false, hdefault]

/-- Before closing time and on another day only a full label disables the button. -/
theorem enabled_iff (h : Chosen page form date m n)
    (hsalon : db.salons.find? salonId = some salon) :
    (page.loadSlotStatus (getBookedSlots db t salonId (isoDate date)).body).disabled (hhmm m) =
        false ↔
      ∀ l ∈ slotLabels m n,
        (((db.paidSlotTimes salonId (isoDate date)).flatMap rowLabels).count l : Int) <
          effectiveWorkers salon.workerCount := by
  obtain ⟨k, rfl⟩ : ∃ k, n = k + 1 := ⟨n - 1, by have := h.pos; omega⟩
  have hclosing := h.closing
  have hday : (isoDate date == page.todayDate) = false := by
    simpa using Ne.symm h.notToday
  have hcount : max (k + 1) 1 = k + 1 := by omega
  have hlabels : getRequiredSlots (hhmm m) (k + 1) = slotLabels m (k + 1) :=
    getRequiredSlots_eq (by omega) (by omega)
  have hlast : (m + 30 * k) % 1440 = m + 30 * k := Nat.mod_eq_of_lt (by omega)
  have hopen : ¬ 22 * 60 < m + 30 * k + 30 := by omega
  rw [loadSlotStatus_eq h hsalon]
  simp only [BookSlotPage.disabled, h.count, hcount, h.dateInput, hday, Bool.false_and, hlabels,
    getLast?_slotLabels, Option.bind_some, timeToMinutes_hhmm, hlast, Option.map_some,
    Option.any_some, hopen, decide_false, get_bookedCount]
  simp

theorem accepted_iff (h : Chosen page form date m n) (now : Nat)
    (hfuture : now / (1440 * 60000000) < date.ordinal) (workerCount : Option Int)
    (paid : Text → List (Option Text)) :
    (∃ booking, checkBooking now salonId workerCount paid form = .ok booking) ↔
      ∀ l ∈ slotLabels m n, (((paid (isoDate date)).flatMap rowLabels).count l : Int) <
        effectiveWorkers workerCount := by
  have hclosing := h.closing
  have hpos := h.pos
  have hm : m % 1440 = m := Nat.mod_eq_of_lt (by omega)
  constructor
  · rintro ⟨booking, hok⟩
    obtain ⟨date', t', m', haccepted⟩ := checkBooking_ok.mp hok
    have hclock := haccepted.clock
    rw [h.slotTime, Option.getD_some, strptimeClock_hhmm, hm] at hclock
    obtain rfl := Option.some.inj hclock
    have hfree := haccepted.free
    rwa [h.slotDate, h.services] at hfree
  · intro hfree
    refine ⟨_, checkBooking_ok.mpr ⟨date, m, m, ?_, h.total, ?_, ?_, ?_, ?_, ?_, ?_, rfl⟩⟩
    · intro hnil
      have hlen := h.services
      rw [hnil, List.length_nil] at hlen
      omega
    · rw [h.slotDate, h.slotTime, Option.getD_some, Option.getD_some, strptimeDateClock_canonical,
        hm]
    · unfold instantOf
      have hday := Nat.lt_mul_of_div_lt hfuture (by omega)
      rw [Nat.mul_comm] at hday
      calc now ≤ date.ordinal * 1440 * 60000000 := by omega
        _ ≤ (date.ordinal * 1440 + m) * 60000000 := Nat.mul_le_mul_right _ (Nat.le_add_right _ _)
    · rw [h.slotTime, Option.getD_some, strptimeClock_hhmm, hm]
    · rw [h.services]
      intro i hi
      unfold clockInstant endOfTime
      omega
    · omega
    · rwa [h.slotDate, h.services]

/-- The button is enabled exactly when the server accepts the booking, and the server stores
the labels the page computes. -/
theorem enabled_iff_stored (h : Chosen page form date m n)
    (hsalon : db.salons.find? salonId = some salon) (husername : s.username.isSome)
    (huserId : s.userId.isSome) (hfuture : env.now / (1440 * 60000000) < date.ordinal) :
    ((page.loadSlotStatus (getBookedSlots db t salonId (isoDate date)).body).disabled (hhmm m) =
        false ↔
      ∃ booking, (bookSlotForSalon env db s salonId (some form)).Stores salonId booking) ∧
    ∀ booking, (bookSlotForSalon env db s salonId (some form)).Stores salonId booking →
      booking.slotTime = joinComma (getRequiredSlots (hhmm m) n) := by
  have hclosing := h.closing
  have hpos := h.pos
  constructor
  · rw [enabled_iff h hsalon, ← accepted_iff h env.now hfuture]
    constructor
    · rintro ⟨booking, hok⟩
      exact ⟨booking, stores_iff.mpr ⟨salon, husername, huserId, hsalon, hok⟩⟩
    · rintro ⟨booking, hstores⟩
      obtain ⟨salon', hbooks⟩ := stores_iff.mp hstores
      obtain rfl : salon' = salon := Option.some.inj (hbooks.row.symm.trans hsalon)
      exact ⟨booking, hbooks.checked⟩
  · intro booking hstores
    obtain ⟨salon', hbooks⟩ := stores_iff.mp hstores
    obtain ⟨date', t', m', haccepted⟩ := checkBooking_ok.mp hbooks.checked
    have hclock := haccepted.clock
    rw [h.slotTime, Option.getD_some, strptimeClock_hhmm, Nat.mod_eq_of_lt (by omega)] at hclock
    obtain rfl := Option.some.inj hclock
    rw [haccepted.booking, getRequiredSlots_eq (by omega) (by omega), h.services]

end Agreement

def visitedPage : BookSlotPage where
  dateInput := "2030-01-01".toList
  todayDate := "2029-12-31".toList
  currentMinutes := 720
  selectedServiceCount := 2

def visitedForm : BookForm where
  slotDate := some "2030-01-01".toList
  slotTime := some "10:30".toList
  selectedServices := ["1".toList, "2".toList]
  totalPrice := some "150".toList

theorem enabled_iff_stored_visit :
    (visitedPage.loadSlotStatus (getBookedSlots visit.final.db {} 1
      "2030-01-01".toList).body).disabled "10:30".toList = false ↔
    ∃ booking, (bookSlotForSalon (calmly 0 "order") visit.final.db (visit.final.cookie 2) 1
      (some visitedForm)).Stores 1 booking := by
  have hsalon : (visit.final.db.salons.find? 1).isSome := by decide +kernel
  obtain ⟨salon, hfind⟩ := Option.isSome_iff_exists.mp hsalon
  have hchosen : Chosen visitedPage visitedForm ⟨2030, 1, 1, by decide⟩ 630 2 := by
    constructor <;> decide +kernel
  exact (enabled_iff_stored hchosen hfind (by decide +kernel) (by decide +kernel)
    (by decide +kernel)).1

end Gloora
