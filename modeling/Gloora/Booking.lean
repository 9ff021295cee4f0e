import Gloora.Lib.Tally
import Gloora.Lib.Calendar
import Gloora.Web

/-!
# Booking and paying for slots

`checkBooking` is everything POST /book-slot decides between the salon's row and the
session; the handlers around it only fetch and store.
-/

namespace Gloora
set_option autoImplicit false

open PyText Binary64 Calendar

variable (P : Platform) (env : Env) (db : Db) (s : Session)

section Slots

def slotAt (m i : Nat) : Except Text Text :=
  match addMinutes (clockInstant m) (i * 30) with
  | none => .error "OverflowError".toList
  | some t => .ok (hhmm t)

/-- `generate_required_slots`; the error is the name of the exception. -/
def generateRequiredSlots (startTime : Text) (serviceCount : Nat) : Except Text (List Text) :=
  match strptimeClock startTime with
  | none => .error "ValueError".toList
  | some m => (List.range serviceCount).mapM (slotAt m)

/-- The dictionary filled from the `slot_time` column of the paid rows. -/
def bookedCount (rows : List (Option Text)) : List (Text × Nat) :=
  rows.foldl (fun counts row =>
    match row with
    | none | some [] => counts
    | some slotTime => Tally.bumpAll counts (splitComma slotTime)) []

/-- `max(int(salon["worker_count"] or 1), 1)` -/
def effectiveWorkers (workerCount : Option Int) : Int :=
  max (match workerCount with
    | none | some 0 => 1
    | some w => w) 1

end Slots

section BookSlot

structure BookForm where
  slotDate : Option Text
  slotTime : Option Text
  selectedServices : List Text
  totalPrice : Option Text
deriving DecidableEq

/-- How the checks end without a booking: a message and the form again, or an exception. -/
inductive Refusal where
  | flash (message : Text)
  | raised (exception : Text)
deriving DecidableEq

/-- `datetime` at minute `t` of a date, in the unit of `Env.now`. -/
def instantOf (date : Date) (t : Nat) : Nat := (date.ordinal * 1440 + t) * 60000000

/-- `float(request.form.get("total_price", "0"))`, and 0 on a ValueError. -/
def totalPriceField (field : Option Text) : Double :=
  (pyFloat (field.getD "0".toList)).getD (.fin 0)

def unavailable (slot : Text) : Text :=
  "Time slot ".toList ++ slot ++ " is unavailable.".toList

def firstUnavailable (rows : List (Option Text)) (workers : Int) (required : List Text) :
    Option Text :=
  required.find? fun slot => workers ≤ (Tally.get (bookedCount rows) slot : Int)

/-- The checks of POST /book-slot. `paid` gives the `slot_time` column of the salon's paid
rows on a date. -/
def checkBooking (now salonId : Nat) (workerCount : Option Int)
    (paid : Text → List (Option Text)) (form : BookForm) : Except Refusal PendingBooking :=
  let slotDate := form.slotDate.getD []
  let slotTime := form.slotTime.getD []
  let totalPrice := totalPriceField form.totalPrice
  if slotDate.isEmpty || slotTime.isEmpty || form.selectedServices.isEmpty ||
      leZero totalPrice then
    .error (.flash "Please select date, time and at least one service!".toList)
  else
    match strptimeDateClock (slotDate ++ ' ' :: slotTime) with
    | none => .error (.flash "Invalid date or time!".toList)
    | some (date, t) =>
      if instantOf date t < now then
        .error (.flash "You cannot book past time slots!".toList)
      else
        let serviceCount := form.selectedServices.length
        match generateRequiredSlots slotTime serviceCount with
        | .error e => .error (.raised e)
        | .ok [] => .error (.raised "IndexError".toList)
        | .ok (startTime :: later) =>
          match strptimeClock startTime with
          | none => .error (.raised "ValueError".toList)
          | some m =>
            let endTime := hhmm (clockInstant m + 30)
            if "22:00".toList < endTime then
              .error (.flash
                "Selected services exceed salon closing time (10:00 PM).".toList)
            else
              match firstUnavailable (paid slotDate) (effectiveWorkers workerCount)
                  (startTime :: later) with
              | some slot => .error (.flash (unavailable slot))
              | none => .ok
                  { salonId
                    slotDate
                    slotTime := joinComma (startTime :: later)
                    startTime
                    endTime
                    selectedServices := form.selectedServices
                    serviceTotal := totalPrice
                    platformFee := serviceCount * 10 }

/-- /book-slot/<salon_id>; `none` is a GET. -/
def bookSlotForSalon (salonId : Nat) (form : Option BookForm) : Outcome :=
  if s.username.isNone || s.userId.isNone then
    redirectTo db s "login_page" "Please login first to book a slot!" "error"
  else
    match db.salons.find? salonId with
    | none => redirectTo db s "show_salons" "Salon not found!" "error"
    | some salon =>
      match form with
      | none => renderTemplate db s "book_slot.html"
      | some form =>
        match checkBooking env.now salonId salon.workerCount (db.paidSlotTimes salonId) form with
        | .ok booking =>
          quietRedirect db { s with pendingBooking := some booking } "payment" (some salonId)
        | .error (.flash message) =>
          { db
            session := s
            body := .redirect "book_slot_for_salon".toList (some salonId)
            flashes := [⟨message, "error".toList⟩] }
        | .error (.raised e) => raise db s e

def getBookedSlots (salonId : Nat) (slotDate : Text) : Outcome :=
  match db.salons.find? salonId with
  | none => raise db s "TypeError".toList
  | some salon =>
    { db
      session := s
      body := .bookedSlots (bookedCount (db.paidSlotTimes salonId slotDate))
        (effectiveWorkers salon.workerCount) }

end BookSlot

section Payment

/-- GET /payment/<salon_id>. The amount `int(platform_fee * 100)` is in paise; the salon
of the URL is not used. -/
def payment : Outcome :=
  match s.username, s.userId with
  | some username, some _ =>
    match s.pendingBooking with
    | none => redirectTo db s "show_salons" "No pending booking found!" "error"
    | some booking =>
      let amount := booking.platformFee * 100
      match env.createOrder amount with
      | none => redirectTo db s "show_salons" "Unable to create payment order." "error"
      | some id =>
        { db
          session := s
          order := some ⟨id, amount⟩
          body := .paymentPage
            { username
              slotDate := booking.slotDate
              startTime := booking.startTime
              endTime := booking.endTime
              serviceTotal := booking.serviceTotal
              platformFee := booking.platformFee
              serviceCount := booking.selectedServices.length
              order := ⟨id, amount⟩ } }
  | _, _ => redirectTo db s "login_page" "Please login first!" "error"

structure PaymentForm where
  paymentId : Option Text
  orderId : Option Text
  signature : Option Text
deriving DecidableEq

def Platform.verifyPaymentSignature (orderId paymentId signature : Text) : Bool :=
  P.hmacSha256 (orderId ++ '|' :: paymentId) == signature

def paidRow (userId : Nat) (username : Text) (booking : PendingBooking) : Slot where
  userId := userId
  username := username
  salonId := booking.salonId
  serviceId := none
  slotDate := booking.slotDate
  slotTime := some booking.slotTime
  startTime := booking.startTime
  endTime := booking.endTime
  selectedServices := joinComma booking.selectedServices
  totalPrice := sqliteReal booking.serviceTotal
  paymentStatus := "paid".toList

def paymentSuccess (form : PaymentForm) : Outcome :=
  match s.userId with
  | none => redirectTo db s "login_page" "Please login first!" "error"
  | some userId =>
    let paymentId := form.paymentId.getD []
    let orderId := form.orderId.getD []
    let signature := form.signature.getD []
    if paymentId.isEmpty || orderId.isEmpty || signature.isEmpty then
      redirectTo db s "show_salons" "Payment failed!" "error"
    else if !P.verifyPaymentSignature orderId paymentId signature then
      redirectTo db s "show_salons" "Payment verification failed!" "error"
    else
      match s.pendingBooking with
      | none => redirectTo db s "show_salons" "Booking session expired!" "error"
      | some booking =>
        match s.username with
        -- a KeyError, which the handler catches like any other exception
        | none => redirectTo db s "show_salons" "Something went wrong after payment!" "error"
        | some username =>
          match env.execute 0 db (.insertSlot (paidRow userId username booking)) with
          | .error _ =>
            redirectTo db s "show_salons" "Something went wrong after payment!" "error"
          | .ok db' =>
            redirectTo db' { s with pendingBooking := none } "show_salons"
              "Payment successful! Slot booked." "success"

end Payment

end Gloora
