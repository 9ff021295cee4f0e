import Gloora.Schema

/-!
# Sessions, replies and what lies outside the program

A handler is a function of the session cookie, the database, and an `Env`: what the
clock, SQLite and the payment gateway do during this one request. `Platform` holds what
is fixed for the whole deployment. Texts of flash messages are kept, their transport in
the session is not.
-/

namespace Gloora
set_option autoImplicit false

open PyText Binary64

structure Platform where
  /-- `os.getenv("ADMIN_USERNAME")` and so on; `none` when the variable is not set. -/
  adminUsername : Option Text
  adminEmail : Option Text
  adminPassword : Option Text
  /-- Whether `os.name == "nt"`. -/
  windows : Bool
  generatePasswordHash : Nat → Text → Text
  checkPasswordHash : Text → Text → Bool
  /-- A key is accepted exactly when it is the one that was hashed, whatever the salt. -/
  check_generate : ∀ salt p q, checkPasswordHash (generatePasswordHash salt p) q = true ↔ q = p
  /-- The hexadecimal HMAC-SHA256 of a message under the app's Razorpay secret. -/
  hmacSha256 : Text → Text
  hmac_ne_nil : ∀ msg, hmacSha256 msg ≠ []
  /-- `unicodedata.normalize("NFKD", s).encode("ascii", "ignore")` -/
  nfkdAscii : Text → Text
  /-- Whether `str.lower` takes a capital sigma between these texts for the last letter of a
  word. -/
  finalSigma : Text → Text → Bool

/-- What the world outside does during one request. -/
structure Env where
  /-- `datetime.now()` in microseconds, on the scale on which the day with ordinal `n`
  starts at `n` times the length of a day. -/
  now : Nat
  /-- `int(time.time())` -/
  unixTime : Nat
  salt : Nat
  /-- `razorpay_client.order.create` for an amount in paise: the order's id, or an exception. -/
  createOrder : Nat → Option Text
  /-- Whether SQLite accepts the k-th write of the request and its commit. -/
  accepts : Nat → Bool

/-- `session["pending_booking"]` -/
structure PendingBooking where
  salonId : Nat
  slotDate : Text
  slotTime : Text
  startTime : Text
  endTime : Text
  selectedServices : List Text
  serviceTotal : Double
  platformFee : Nat
deriving DecidableEq

/-- The session of a request; a key that is absent is `none`. -/
structure Session where
  admin : Bool := false
  username : Option Text := none
  email : Option Text := none
  userId : Option Nat := none
  pendingBooking : Option PendingBooking := none
  verifiedSalonToggleId : Option Nat := none
  verifiedWorkerSalonId : Option Nat := none
  verifiedSalonId : Option Nat := none
  resetMobile : Option Text := none
  resetOtp : Option Text := none
  otpVerified : Bool := false
deriving DecidableEq

structure Order where
  id : Text
  amount : Nat
deriving DecidableEq

structure PaymentPage where
  username : Text
  slotDate : Text
  startTime : Text
  endTime : Text
  serviceTotal : Double
  platformFee : Nat
  serviceCount : Nat
  order : Order
deriving DecidableEq

inductive Body where
  | page (template : Text)
  | paymentPage (page : PaymentPage)
  | bookedSlots (slots : List (Text × Nat)) (workerCount : Int)
  | redirect (endpoint : Text) (salonId : Option Nat)
  | file
  /-- An exception that leaves the handler: status 500. -/
  | error (exception : Text)
  /-- No handler ran: status 404 or 405, or an automatic answer. -/
  | unrouted
deriving DecidableEq

def Body.failed : Body → Bool
  | .error _ => true
  | _ => false

structure Flash where
  message : Text
  category : Text
deriving DecidableEq

structure Outcome where
  db : Db
  session : Session
  body : Body
  flashes : List Flash := []
  order : Option Order := none

/-- Runs the k-th write of the request; an exception leaves the tables as they are. -/
def Env.execute (env : Env) (k : Nat) (db : Db) (w : Write) : Except Text Db :=
  if env.accepts k then
    match db.exec w with
    | some db' => .ok db'
    | none => .error "IntegrityError".toList
  else .error "OperationalError".toList

theorem Env.execute_ok {env : Env} {k : Nat} {db db' : Db} {w : Write} :
    env.execute k db w = .ok db' ↔ env.accepts k = true ∧ db.exec w = some db' := by
  unfold Env.execute
  cases haccept : env.accepts k
  · simp
  · cases hexec : db.exec w <;> simp

section Replies
variable (db : Db) (s : Session)

def redirectTo (endpoint message category : String) : Outcome where
  db := db
  session := s
  body := .redirect endpoint.toList none
  flashes := [⟨message.toList, category.toList⟩]

def redirectToSalon (endpoint : String) (salonId : Nat) (message category : String) : Outcome where
  db := db
  session := s
  body := .redirect endpoint.toList (some salonId)
  flashes := [⟨message.toList, category.toList⟩]

def quietRedirect (endpoint : String) (salonId : Option Nat) : Outcome where
  db := db
  session := s
  body := .redirect endpoint.toList salonId

def renderTemplate (template : String) : Outcome where
  db := db
  session := s
  body := .page template.toList

def raise (exception : Text) : Outcome where
  db := db
  session := s
  body := .error exception

end Replies

end Gloora
