import Gloora.Lib.Connections
import Gloora.Recording
import Gloora.ResetFlow

/-!
# POST /payment-success, key by key

Here the session is any dictionary, with or without the keys of `pending_booking`, and the
connection is opened, written to and committed by calls that may fail one by one.
-/

namespace Gloora.Settlement
set_option autoImplicit false

open PyText Binary64 Connections

section Cookie

/-- `session["pending_booking"]` as a dictionary; a key that is absent is `none`. -/
structure BookingDict where
  salonId : Option Nat := none
  slotDate : Option Text := none
  slotTime : Option Text := none
  startTime : Option Text := none
  endTime : Option Text := none
  selectedServices : Option (List Text) := none
  serviceTotal : Option Double := none
  platformFee : Option Nat := none
deriving DecidableEq

/-- The dictionary that `book_slot_for_salon` stores. -/
def BookingDict.of (booking : PendingBooking) : BookingDict where
  salonId := some booking.salonId
  slotDate := some booking.slotDate
  slotTime := some booking.slotTime
  startTime := some booking.startTime
  endTime := some booking.endTime
  selectedServices := some booking.selectedServices
  serviceTotal := some booking.serviceTotal
  platformFee := some booking.platformFee

/-- A session whose `pending_booking` may lack keys; `others` has the other keys. -/
structure Cookie where
  others : Session
  pendingBooking : Option BookingDict
  others_pending : others.pendingBooking = none
deriving DecidableEq

/-- `session.pop("pending_booking", None)` -/
def Cookie.pop (s : Cookie) : Cookie := { s with pendingBooking := none }

def Cookie.of (s : Session) : Cookie where
  others := { s with pendingBooking := none }
  pendingBooking := s.pendingBooking.map BookingDict.of
  others_pending := rfl

end Cookie

section Handler

/-- Whether SQLite opens the connection, takes the row, commits it, and commits once more at
the end of the `with` block. -/
structure Sqlite where
  connects : Bool
  accepts : Bool
  commits : Bool
  closes : Bool

structure Reply where
  db : Db
  session : Cookie
  body : Body
  flashes : List Flash

def redirectTo (db : Db) (s : Cookie) (endpoint message category : String) : Reply where
  db := db
  session := s
  body := .redirect endpoint.toList none
  flashes := [⟨message.toList, category.toList⟩]

/-- `d[key]` -/
def subscript {α : Type} : Option α → Except Text α
  | some value => .ok value
  | none => .error "KeyError".toList

/-- The values of the INSERT, from the first to the last. -/
def insertedValues (s : Cookie) (booking : BookingDict) : Except Text Slot := do
  let userId ← subscript s.others.userId
  let username ← subscript s.others.username
  let salonId ← subscript booking.salonId
  let slotDate ← subscript booking.slotDate
  let slotTime ← subscript booking.slotTime
  let startTime ← subscript booking.startTime
  let endTime ← subscript booking.endTime
  let selectedServices ← subscript booking.selectedServices
  let serviceTotal ← subscript booking.serviceTotal
  pure
    { userId
      username
      salonId
      serviceId := none
      slotDate
      slotTime := some slotTime
      startTime
      endTime
      selectedServices := joinComma selectedServices
      totalPrice := sqliteReal serviceTotal
      paymentStatus := "paid".toList }

def operational (succeeds : Bool) : Option Text :=
  if succeeds then none else some "OperationalError".toList

def Sqlite.connect (sqlite : Sqlite) : Except Text Unit :=
  if sqlite.connects then .ok () else .error "OperationalError".toList

def Sqlite.insert (sqlite : Sqlite) (row : Slot) (db : Db) : Except Text Db :=
  if sqlite.accepts then
    match db.exec (.insertSlot row) with
    | some db' => .ok db'
    | none => .error "IntegrityError".toList
  else .error "OperationalError".toList

/-- The `with` block of the handler. -/
def insertBooking (sqlite : Sqlite) (db : Db) (s : Cookie) (booking : BookingDict) :
    Except Text Unit × Db :=
  withConnection sqlite.connect (operational sqlite.closes) db
    (saveOnce (insertedValues s booking) sqlite.insert (operational sqlite.commits))

def paymentSuccess (P : Platform) (sqlite : Sqlite) (db : Db) (s : Cookie)
    (form : PaymentForm) : Reply :=
  if s.others.userId.isNone then redirectTo db s "login_page" "Please login first!" "error"
  else
    let paymentId := form.paymentId.getD []
    let orderId := form.orderId.getD []
    let signature := form.signature.getD []
    if paymentId.isEmpty || orderId.isEmpty || signature.isEmpty then
      redirectTo db s "show_salons" "Payment failed!" "error"
    else if !P.verifyPaymentSignature orderId paymentId signature then
      redirectTo db s "show_salons" "Payment verification failed!" "error"
    else
      match s.pendingBooking with
      | none => redirectTo db s "show_salons" "Booking session expired!" "error"
      | some booking =>
        -- an empty dictionary is false
        if booking = {} then redirectTo db s "show_salons" "Booking session expired!" "error"
        else
          match insertBooking sqlite db s booking with
          | (.ok (), db') =>
            redirectTo db' s.pop "show_salons" "Payment successful! Slot booked." "success"
          | (.error _, db') =>
            redirectTo db' s "show_salons" "Something went wrong after payment!" "error"

end Handler

section Atomic
variable {P : Platform} {sqlite : Sqlite} {db : Db} {s : Cookie} {form : PaymentForm} {row : Slot}

/-- The reply comes with one more row and without the pending booking. -/
structure Settled (db : Db) (s : Cookie) (reply : Reply) (row : Slot) : Prop where
  inserted : reply.db = { db with slots := db.slots.insert row }
  removed : reply.session = s.pop
  pending : s.pendingBooking.isSome

/-- Login, form, signature and database are in order for the row of `booking`. -/
structure Ready (P : Platform) (sqlite : Sqlite) (db : Db) (s : Cookie) (form : PaymentForm)
    (booking : PendingBooking) (row : Slot) : Prop where
  user : ∃ userId username, s.others.userId = some userId ∧ s.others.username = some username ∧
    row = paidRow userId username booking
  paymentId : form.paymentId.getD [] ≠ []
  orderId : form.orderId.getD [] ≠ []
  signature : form.signature.getD [] ≠ []
  verified : P.verifyPaymentSignature (form.orderId.getD []) (form.paymentId.getD [])
    (form.signature.getD []) = true
  connects : sqlite.connects = true
  accepts : sqlite.accepts = true ∧ db.refersTo row = true
  commits : sqlite.commits = true

/-- The pending booking has every key the INSERT reads; it reads no platform fee. -/
def Settles (P : Platform) (sqlite : Sqlite) (db : Db) (s : Cookie) (form : PaymentForm)
    (row : Slot) : Prop :=
  ∃ booking fee, s.pendingBooking = some { BookingDict.of booking with platformFee := fee } ∧
    Ready P sqlite db s form booking row

theorem subscript_ok {α : Type} {x : Option α} {a : α} : subscript x = .ok a ↔ x = some a := by
  cases x <;> simp [subscript]

theorem except_bind_ok {α β : Type} {x : Except Text α} {f : α → Except Text β} {b : β} :
    (x >>= f) = .ok b ↔ ∃ a, x = .ok a ∧ f a = .ok b := by
  cases x with
  | error e => simp [bind, Except.bind]
  | ok a => simp [bind, Except.bind]

theorem insertedValues_ok {dict : BookingDict} : insertedValues s dict = .ok row ↔
    ∃ userId username booking fee, s.others.userId = some userId ∧
      s.others.username = some username ∧
      dict = { BookingDict.of booking with platformFee := fee } ∧
      row = paidRow userId username booking := by
  simp only [insertedValues, except_bind_ok, subscript_ok]
  constructor
  · rintro ⟨userId, huser, username, hname, salonId, hsalon, slotDate, hdate, slotTime, htime,
      startTime, hstart, endTime, hend, selectedServices, hservices, serviceTotal, htotal, hrow⟩
    obtain rfl := (Except.ok.inj hrow).symm
    refine ⟨userId, username, ⟨salonId, slotDate, slotTime, startTime, endTime, selectedServices,
      serviceTotal, 0⟩, dict.platformFee, huser, hname, ?_, rfl⟩
    cases dict
    simp_all [BookingDict.of]
  · rintro ⟨userId, username, booking, fee, huser, hname, rfl, rfl⟩
    exact ⟨_, huser, _, hname, _, rfl, _, rfl, _, rfl, _, rfl, _, rfl, _, rfl, _, rfl, rfl⟩

theorem insert_ok {db' : Db} : sqlite.insert row db = .ok db' ↔
    sqlite.accepts = true ∧ db.refersTo row = true ∧
      db' = { db with slots := db.slots.insert row } := by
  rw [← exec_insertSlot]
  unfold Sqlite.insert
  cases sqlite.accepts
  · simp
  · cases db.exec (.insertSlot row) <;> simp

theorem operational_none {succeeds : Bool} : operational succeeds = none ↔ succeeds = true := by
  cases succeeds <;> simp [operational]

theorem connect_ok : sqlite.connect = .ok () ↔ sqlite.connects = true := by
  unfold Sqlite.connect
  split <;> simp_all

theorem Ready.insertBooking {booking : PendingBooking} {fee : Option Nat}
    (h : Ready P sqlite db s form booking row) :
    insertBooking sqlite db s { BookingDict.of booking with platformFee := fee } =
      (.ok (), { db with slots := db.slots.insert row }) := by
  obtain ⟨userId, username, huser, hname, hrow⟩ := h.user
  unfold Settlement.insertBooking
  rw [connect_ok.mpr h.connects, operational_none.mpr h.commits]
  apply withConnection_of_saved
  · exact insertedValues_ok.mpr ⟨userId, username, booking, fee, huser, hname, rfl, hrow⟩
  · exact insert_ok.mpr ⟨h.accepts.1, h.accepts.2, rfl⟩

theorem insertBooking_cases (sqlite : Sqlite) (db : Db) (s : Cookie) (dict : BookingDict) :
    (∃ userId username booking fee row, s.others.userId = some userId ∧
      s.others.username = some username ∧
      dict = { BookingDict.of booking with platformFee := fee } ∧
      row = paidRow userId username booking ∧ sqlite.connects = true ∧
      (sqlite.accepts = true ∧ db.refersTo row = true) ∧ sqlite.commits = true ∧
      insertBooking sqlite db s dict = (.ok (), { db with slots := db.slots.insert row })) ∨
    ∃ e, insertBooking sqlite db s dict = (.error e, db) := by
  rcases withConnection_saveOnce with ⟨row, db', hconnect, hvalues, hinsert, hcommit, hok⟩ | herror
  · obtain ⟨userId, username, booking, fee, huser, hname, hdict, hrow⟩ :=
      insertedValues_ok.mp hvalues
    obtain ⟨haccepts, hrefers, rfl⟩ := insert_ok.mp hinsert
    exact .inl ⟨userId, username, booking, fee, row, huser, hname, hdict, hrow,
      connect_ok.mp hconnect, ⟨haccepts, hrefers⟩, operational_none.mp hcommit, hok⟩
  · exact .inr herror

theorem Settles.settled (h : Settles P sqlite db s form row) :
    Settled db s (paymentSuccess P sqlite db s form) row := by
  obtain ⟨booking, fee, hpending, hready⟩ := h
  obtain ⟨userId, username, huser, -, -⟩ := hready.user
  have hlogin : s.others.userId.isNone = false := by simp [huser]
  have hfields : ((form.paymentId.getD []).isEmpty || (form.orderId.getD []).isEmpty ||
      (form.signature.getD []).isEmpty) = false := by
    simp [hready.paymentId, hready.orderId, hready.signature]
  have hdict : { BookingDict.of booking with platformFee := fee } ≠ ({} : BookingDict) := by
    simp [BookingDict.of]
  have hreply : paymentSuccess P sqlite db s form =
      redirectTo { db with slots := db.slots.insert row } s.pop "show_salons"
        "Payment successful! Slot booked." "success" := by
    simp only [paymentSuccess, hlogin, hfields, hready.verified, hpending, hdict,
      hready.insertBooking, Bool.not_true, Bool.false_eq_true, if_false]
  rw [hreply]
  exact ⟨rfl, rfl, by simp [hpending]⟩

/-- Every other way through the handler changes nothing. -/
theorem paymentSuccess_unsettled (h : ∀ row, ¬ Settles P sqlite db s form row) :
    (paymentSuccess P sqlite db s form).db = db ∧
      (paymentSuccess P sqlite db s form).session = s := by
  unfold paymentSuccess
  split
  · exact ⟨rfl, rfl⟩
  simp only
  split
  · exact ⟨rfl, rfl⟩
  rename_i hfields
  simp only [Bool.or_eq_true, List.isEmpty_iff, not_or] at hfields
  split
  · exact ⟨rfl, rfl⟩
  rename_i hverified
  split
  · exact ⟨rfl, rfl⟩
  rename_i dict hdict
  split
  · exact ⟨rfl, rfl⟩
  rcases insertBooking_cases sqlite db s dict with
    ⟨userId, username, booking, fee, row, huser, hname, rfl, hrow, hconnects, haccepts, hcommits,
      -⟩ | ⟨e, herror⟩
  · have hready : Ready P sqlite db s form booking row :=
      ⟨⟨userId, username, huser, hname, hrow⟩, hfields.1.1, hfields.1.2, hfields.2,
        by simpa using hverified, hconnects, haccepts, hcommits⟩
    exact absurd ⟨booking, fee, hdict, hready⟩ (h row)
  · rw [herror]
    exact ⟨rfl, rfl⟩

theorem insert_slots_inj {row row' : Slot} (h : ({ db with slots := db.slots.insert row } : Db) =
    { db with slots := db.slots.insert row' }) : row = row' := by
  have hrows := congrArg (fun d : Db => d.slots.rows) h
  have hlast := List.append_cancel_left hrows
  simpa using hlast

/-- The handler inserts one row and removes the pending booking, or does neither. -/
theorem payment_all_or_nothing (P : Platform) (sqlite : Sqlite) (db : Db) (s : Cookie)
    (form : PaymentForm) :
    let reply := paymentSuccess P sqlite db s form
    (∀ row, Settled db s reply row ↔ Settles P sqlite db s form row) ∧
      ((∀ row, ¬ Settles P sqlite db s form row) → reply.db = db ∧ reply.session = s) ∧
      reply.session.others = s.others ∧
      (reply.db ≠ db → P.verifyPaymentSignature (form.orderId.getD []) (form.paymentId.getD [])
        (form.signature.getD []) = true) := by
  intro reply
  by_cases hsettles : ∃ row, Settles P sqlite db s form row
  · obtain ⟨row, hrow⟩ := hsettles
    have hsettled : Settled db s reply row := hrow.settled
    have hothers := congrArg Cookie.others hsettled.removed
    refine ⟨fun row' => ⟨?_, Settles.settled⟩, fun hnone => absurd hrow (hnone row), hothers, ?_⟩
    · intro hsettled'
      rw [insert_slots_inj (hsettled'.inserted.symm.trans hsettled.inserted)]
      exact hrow
    · obtain ⟨booking, fee, -, hready⟩ := hrow
      exact fun _ => hready.verified
  · obtain ⟨hdb, hsession⟩ := paymentSuccess_unsettled (not_exists.mp hsettles)
    have hothers := congrArg Cookie.others hsession
    refine ⟨fun row => ⟨?_, Settles.settled⟩, fun _ => ⟨hdb, hsession⟩, hothers,
      fun hchanged => absurd hdb hchanged⟩
    intro hsettled
    have hremoved := congrArg Cookie.pendingBooking (hsession.symm.trans hsettled.removed)
    have hpending := hsettled.pending
    simp [hremoved, Cookie.pop] at hpending

/-- Bob comes back from a payment signed for `plain`. -/
def signedForm : PaymentForm where
  paymentId := some "pay_1".toList
  orderId := some "order_1".toList
  signature := some (plain.hmacSha256 "order_1|pay_1".toList)

def bobsBooking : PendingBooking where
  salonId := 1
  slotDate := "2030-01-01".toList
  slotTime := "10:00".toList
  startTime := "10:00".toList
  endTime := "10:30".toList
  selectedServices := ["1".toList]
  serviceTotal := .fin (100 * 2 ^ 1074)
  platformFee := 10

/-- His booking has lost its platform fee. -/
def feeless : Cookie where
  others := { userId := some 2, username := some "bob".toList }
  pendingBooking := some { BookingDict.of bobsBooking with platformFee := none }
  others_pending := rfl

/-- The row is inserted although a key that book_slot_for_salon writes is missing. -/
theorem fee_not_required : ¬ ∀ (P : Platform) (sqlite : Sqlite) (db : Db) (s : Cookie)
    (form : PaymentForm) (row : Slot), Settled db s (paymentSuccess P sqlite db s form) row →
      ∃ booking, s.pendingBooking = some (BookingDict.of booking) := by
  intro h
  have hsettles : Settles plain ⟨true, true, true, true⟩ registeredBob.final.db feeless signedForm
      (paidRow 2 "bob".toList bobsBooking) := by
    refine ⟨bobsBooking, none, rfl, ⟨2, "bob".toList, rfl, rfl, rfl⟩, ?_, ?_, ?_, ?_, rfl,
      ⟨rfl, ?_⟩, rfl⟩ <;> decide +kernel
  obtain ⟨booking, hbooking⟩ := h _ _ _ _ _ _ hsettles.settled
  simp [feeless, BookingDict.of] at hbooking

theorem BookingDict.of_eq {booking booking' : PendingBooking} {fee : Option Nat}
    (h : BookingDict.of booking' = { BookingDict.of booking with platformFee := fee })
    (userId : Nat) (username : Text) :
    paidRow userId username booking' = paidRow userId username booking := by
  simp only [BookingDict.of, BookingDict.mk.injEq, Option.some.injEq] at h
  obtain ⟨hsalon, hdate, htime, hstart, hend, hservices, htotal, -⟩ := h
  simp only [paidRow, hsalon, hdate, htime, hstart, hend, hservices, htotal]

/-- On the sessions the app stores, the handler is the one of `handle`, whose one write stands
for the connection, the INSERT and the commit. -/
theorem paymentSuccess_of_session {env : Env} {s : Session}
    (h : env.accepts 0 = (sqlite.connects && sqlite.accepts && sqlite.commits)) :
    (paymentSuccess P sqlite db (.of s) form).db = (Gloora.paymentSuccess P env db s form).db ∧
      (paymentSuccess P sqlite db (.of s) form).session =
        .of (Gloora.paymentSuccess P env db s form).session := by
  rcases Gloora.paymentSuccess_cases P env db s form with
    ⟨userId, username, booking, hpays, hsession⟩ | ⟨hdb, hsession⟩
  · obtain ⟨haccepts, hexec⟩ := Env.execute_ok.mp hpays.executed
    obtain ⟨hrefers, hdb⟩ := exec_insertSlot.mp hexec
    obtain ⟨⟨hconnects, hinsert⟩, hcommits⟩ : (sqlite.connects = true ∧ sqlite.accepts = true) ∧
        sqlite.commits = true := by simpa [haccepts] using h.symm
    have hsettled : Settled db (.of s) _ (paidRow userId username booking) := Settles.settled
      ⟨booking, some booking.platformFee, by simp [Cookie.of, hpays.pending, BookingDict.of],
        ⟨userId, username, hpays.user, hpays.name, rfl⟩, hpays.paymentId, hpays.orderId,
        hpays.signature, hpays.verified, hconnects, ⟨hinsert, hrefers⟩, hcommits⟩
    exact ⟨hsettled.inserted.trans hdb.symm, by rw [hsettled.removed, hsession]; rfl⟩
  · have hnone : ∀ row, ¬ Settles P sqlite db (.of s) form row := by
      rintro row ⟨booking, fee, hpending, hready⟩
      obtain ⟨userId, username, huser, hname, hrow⟩ := hready.user
      obtain ⟨booking', hbooking', hdict⟩ := Option.map_eq_some_iff.mp hpending
      have hrefers := hready.accepts.2
      rw [hrow, ← BookingDict.of_eq hdict] at hrefers
      have haccepts : env.accepts 0 = true := by
        simp [h, hready.connects, hready.accepts.1, hready.commits]
      have hpayable : Payable P
          ⟨0, s, env, .paymentSuccess form, db, Gloora.paymentSuccess P env db s form⟩
          form userId username booking' :=
        ⟨rfl, huser, hname, hbooking', hready.paymentId, hready.orderId, hready.signature,
          hready.verified, haccepts, refersTo_keys hrefers⟩
      have hseq := congrArg (fun d : Db => d.slots.seq) (hdb.symm.trans (hpayable.db_eq rfl))
      simp [Keyed.Table.insert] at hseq
    obtain ⟨hdb', hsession'⟩ := paymentSuccess_unsettled hnone
    exact ⟨hdb'.trans hdb.symm, by rw [hsession', hsession]⟩

end Atomic

end Gloora.Settlement
