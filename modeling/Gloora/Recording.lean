import Gloora.History

/-!
# Which requests record something

`Bookable` and `Payable` are about what a request carries and the database it finds. They
say exactly when POST /book-slot stores a booking and when POST /payment-success inserts
the row of one.
-/

namespace Gloora
set_option autoImplicit false

open PyText

/-- A POST /book-slot of a logged-in browser that every check of the handler lets through. -/
structure Bookable (e : Event) (salonId : Nat) (form : BookForm) (booking : PendingBooking) :
    Prop where
  request : e.request = .bookSlotForSalon salonId (some form)
  username : e.cookie.username.isSome
  userId : e.cookie.userId.isSome
  accepted : ∃ salon date t m, e.before.salons.find? salonId = some salon ∧
    Accepted e.env.now salonId salon.workerCount (e.before.paidSlotTimes salonId) form booking
      date t m

/-- A signed POST /payment-success for the pending booking of a user and a salon that still
exist, while the database accepts statements. -/
structure Payable (P : Platform) (e : Event) (form : PaymentForm) (userId : Nat)
    (username : Text) (booking : PendingBooking) : Prop where
  request : e.request = .paymentSuccess form
  user : e.cookie.userId = some userId
  name : e.cookie.username = some username
  pending : e.cookie.pendingBooking = some booking
  paymentId : form.paymentId.getD [] ≠ []
  orderId : form.orderId.getD [] ≠ []
  signature : form.signature.getD [] ≠ []
  verified : P.verifyPaymentSignature (form.orderId.getD []) (form.paymentId.getD [])
    (form.signature.getD []) = true
  accepts : e.env.accepts 0 = true
  refers : e.before.users.HasKey userId ∧ e.before.salons.HasKey booking.salonId

section Booking
variable {P : Platform} {σ σ' : Sys} {e : Event} {salonId : Nat} {form : BookForm}
  {booking : PendingBooking}

theorem Bookable.books (h : Bookable e salonId form booking) :
    ∃ salon, Books e.env e.before e.cookie salonId form salon booking := by
  obtain ⟨salon, date, t, m, hrow, haccepted⟩ := h.accepted
  exact ⟨salon, h.username, h.userId, hrow, checkBooking_ok.mpr ⟨date, t, m, haccepted⟩⟩

theorem Bookable.salonId_eq (h : Bookable e salonId form booking) :
    booking.salonId = salonId := by
  obtain ⟨salon, hbooks⟩ := h.books
  exact hbooks.salonId_eq

theorem bookSlotForSalon_of_books {env : Env} {db : Db} {s : Session} {salon : Salon}
    (h : Books env db s salonId form salon booking) :
    bookSlotForSalon env db s salonId (some form) =
      quietRedirect db { s with pendingBooking := some booking } "payment" (some salonId) := by
  have hlogin : (s.username.isNone || s.userId.isNone) = false := by
    simp [h.username, h.userId]
  unfold bookSlotForSalon
  simp only [hlogin, Bool.false_eq_true, if_false, h.row, h.checked]

theorem Step.booked_iff (h : Step P σ e σ') :
    e.booked? = some booking ↔ ∃ salonId form, Bookable e salonId form booking := by
  constructor
  · intro hbooked
    obtain ⟨salonId, form, salon, hreq, hbooks, -⟩ := h.booked hbooked
    obtain ⟨date, t, m, haccepted⟩ := checkBooking_ok.mp hbooks.checked
    exact ⟨salonId, form, hreq, hbooks.username, hbooks.userId, salon, date, t, m, hbooks.row,
      haccepted⟩
  · rintro ⟨salonId, form, hbookable⟩
    obtain ⟨salon, hbooks⟩ := hbookable.books
    have hserved := h.served
    rw [hbookable.request, handle, bookSlotForSalon_of_books hbooks] at hserved
    simp [Event.booked?, hbookable.request, hserved, quietRedirect]

end Booking

section Payment
variable {P : Platform} {σ σ' : Sys} {e : Event} {form : PaymentForm} {userId : Nat}
  {username : Text} {booking : PendingBooking} {row : Slot}

theorem Payable.of_pays (hreq : e.request = .paymentSuccess form)
    (h : Pays P e.env e.before e.cookie form userId username booking e.outcome.db) :
    Payable P e form userId username booking where
  request := hreq
  user := h.user
  name := h.name
  pending := h.pending
  paymentId := h.paymentId
  orderId := h.orderId
  signature := h.signature
  verified := h.verified
  accepts := (Env.execute_ok.mp h.executed).1
  refers := refersTo_keys h.slots.1

theorem Payable.executed (h : Payable P e form userId username booking) :
    e.env.execute 0 e.before (.insertSlot (paidRow userId username booking)) =
      .ok { e.before with slots := e.before.slots.insert (paidRow userId username booking) } := by
  have hrefers : e.before.refersTo (paidRow userId username booking) = true := by
    simp [Db.refersTo, paidRow, h.refers]
  exact Env.execute_ok.mpr ⟨h.accepts, exec_insertSlot.mpr ⟨hrefers, rfl⟩⟩

theorem Payable.db_eq (h : Payable P e form userId username booking)
    (hserved : e.outcome = handle P e.env e.before e.cookie e.request) :
    e.outcome.db =
      { e.before with slots := e.before.slots.insert (paidRow userId username booking) } := by
  rw [hserved, h.request, handle]
  simp [paymentSuccess, h.user, h.name, h.pending, h.paymentId, h.orderId, h.signature,
    h.verified, h.executed, redirectTo]

theorem Payable.pays (h : Payable P e form userId username booking)
    (hserved : e.outcome = handle P e.env e.before e.cookie e.request) :
    Pays P e.env e.before e.cookie form userId username booking e.outcome.db :=
  ⟨h.user, h.name, h.pending, h.paymentId, h.orderId, h.signature, h.verified,
    h.db_eq hserved ▸ h.executed⟩

theorem Step.paid_iff (h : Step P σ e σ') :
    e.paid? = some row ↔ ∃ form userId username booking,
      Payable P e form userId username booking ∧ row = paidRow userId username booking := by
  constructor
  · intro hpaid
    obtain ⟨form, userId, username, booking, hreq, hpays, hrow, -⟩ := h.paid hpaid
    exact ⟨form, userId, username, booking, .of_pays hreq hpays, hrow⟩
  · rintro ⟨form, userId, username, booking, hpayable, rfl⟩
    exact Event.paid?_of_pays hpayable.request (hpayable.pays h.served)

end Payment

end Gloora
