import Gloora.Lib.Updates
import Gloora.Server

/-!
# The handlers, statement by statement

`program` is what a request does with the database: one call for each SELECT, INSERT, UPDATE,
DELETE and commit, in the order of the handler. The number of a write and of its commit is
the one by which `Env.accepts` refers to them.
-/

namespace Gloora
set_option autoImplicit false

open PyText Binary64 Runs Threads Transactions

/-- The reply is formed over the tables as they are when it is sent. -/
abbrev Program := Prog (Command Write) (Except Text Db) (Db → Outcome)

section Statements
variable (s : Session)

def reads (next : Db → Program) : Program :=
  .call .read fun
    | .ok view => next view
    | .error e => .done fun db => raise db s e

/-- SELECTs whose rows the model does not look at. -/
def readsOn : Nat → Program → Program
  | 0, next => next
  | n + 1, next => reads s fun _ => readsOn n next

def writes (k : Nat) (w : Write) (next : Db → Program) : Program :=
  .call (.write k w) fun
    | .ok view => next view
    | .error e => .done fun db => raise db s e

def commits (k : Nat) (next : Program) : Program :=
  .call (.commit k) fun
    | .ok _ => next
    | .error e => .done fun db => raise db s e

def saves (k : Nat) (w : Write) (next : Program) : Program :=
  writes s k w fun _ => commits s k next

/-- One SELECT, and a reply that depends on its rows only. -/
def answers (reply : Db → Outcome) : Program :=
  reads s fun view => .done fun db => { reply view with db }

end Statements

section Handlers
variable (P : Platform) (env : Env) (s : Session)

def loginPageProgram (form : AuthForm) : Program :=
  if P.isAdmin (stripped form.username) (stripped form.email) (stripped form.password) then
    .done fun db => loginPage P db s form
  else answers s fun view => loginPage P view s form

def adminDashboardProgram : Program :=
  if s.admin then readsOn s 4 (.done fun db => adminDashboard db s)
  else .done fun db => adminDashboard db s

def databaseViewsProgram : Program :=
  if s.admin then readsOn s 3 (.done fun db => databaseViews db s)
  else .done fun db => databaseViews db s

def deleteRowProgram (w : Write) : Program :=
  saves s 0 w (.done fun db => quietRedirect db s "admin_dashboard" none)

/-- The INSERT of a registration, which catches the violation of a UNIQUE constraint. -/
def insertUserProgram (page : GenderPage) (user : User) : Program :=
  let failed (e : Text) : Program :=
    if e = "IntegrityError".toList then
      .done fun db =>
        redirectTo db s page.endpoint "Username, Email, or Mobile already exists!" "error"
    else .done fun db => raise db s e
  .call (.write 0 (.insertUser user)) fun
    | .error e => failed e
    | .ok _ => .call (.commit 0) fun
      | .error e => failed e
      | .ok _ => .done fun db =>
        redirectTo db s page.endpoint "Registration successful! Please login." "success"

def handleAuthProgram (action : Option Text) (page : GenderPage) (form : AuthForm) : Program :=
  let username := stripped form.username
  let email := stripped form.email
  let mobile := stripped form.mobile
  let password := stripped form.password
  if username.isEmpty || email.isEmpty || password.isEmpty then
    .done fun db => redirectTo db s page.endpoint "All fields are mandatory!" "error"
  else if !isGmail email then
    .done fun db => redirectTo db s page.endpoint "Please enter a valid Gmail address." "error"
  else if action = some "register".toList then
    insertUserProgram s page
      { username, email, mobile
        password := P.generatePasswordHash env.salt password
        gender := page.endpoint.toList }
  else if action = some "login".toList then
    if P.isAdmin username email password then
      .done fun db => redirectTo db adminSession "admin_dashboard" "Admin Login Successful" "success"
    else answers s fun view =>
      match view.findUser username email with
      | some (id, u) =>
        if P.checkPasswordHash u.password password then
          { db := view
            session := userSession id u
            body := .redirect "help_page".toList none
            flashes := [⟨"Welcome back, ".toList ++ u.username ++ ['!'], "success".toList⟩] }
        else redirectTo view s page.endpoint "Invalid credentials!" "error"
      | none => redirectTo view s page.endpoint "Invalid credentials!" "error"
  else .done fun db => quietRedirect db s page.endpoint none

def forgotPasswordFemaleProgram (mobile : Option Text) : Program :=
  if (stripped mobile).isEmpty then .done fun db => forgotPasswordFemale db s mobile
  else answers s fun view => forgotPasswordFemale view s mobile

def resetPasswordProgram (password : Option Text) : Program :=
  if !s.otpVerified then
    .done fun db => redirectTo db s "forgot_password_male" "OTP verification required!" "error"
  else
    match s.resetMobile with
    | none | some [] => .done fun db =>
      redirectTo db s "forgot_password_male" "Session expired. Try again." "error"
    | some mobile =>
      match password with
      | none => .done fun db => raise db s "AttributeError".toList
      | some p =>
        saves s 0 (.setPassword mobile (P.generatePasswordHash env.salt p)) (.done fun db =>
          redirectTo db { s with resetMobile := none, resetOtp := none, otpVerified := false }
            "male" "Password updated successfully! Please login." "success")

/-- The loop over `valid_services` and the last commit. -/
def insertServicesProgram (salonId : Nat) : Nat → List (Text × Double) → Program
  | k, [] => commits s k (.done fun db =>
      redirectTo db s "show_salons" "Salon registered successfully!" "success")
  | k, (name, price) :: rest => reads s fun view =>
    match view.services.first? (· == name) with
    | some (serviceId, _) =>
      writes s k (.insertSalonService ⟨salonId, serviceId, sqliteReal price⟩) fun _ =>
        insertServicesProgram salonId (k + 1) rest
    | none =>
      writes s k (.insertService name) fun view' =>
        commits s k <|
          writes s (k + 1) (.insertSalonService ⟨salonId, view'.services.seq, sqliteReal price⟩)
            fun _ => insertServicesProgram salonId (k + 2) rest

def registerSalonProgram (form : SalonForm) : Program :=
  if !mandatory form then
    .done fun db =>
      { db
        session := s
        body := .page "register_salon.html".toList
        flashes := [⟨"All fields marked with * are mandatory!".toList, "error".toList⟩] }
  else if (validServices form).isEmpty then
    .done fun db =>
      { db
        session := s
        body := .page "register_salon.html".toList
        flashes := [⟨"Please add at least one valid service with price!".toList, "error".toList⟩] }
  else if !fitsInteger (workerCountField form.workerCount) then
    .done fun db => raise db s "OverflowError".toList
  else
    writes s 0 (.insertSalon (newSalon P env s form)) fun view =>
      commits s 0 (insertServicesProgram s view.salons.seq 1 (validServices form))

def recommendProgram (lat lon category : Option Text) : Program :=
  if (lat.bind pyFloat).isNone || (lon.bind pyFloat).isNone then
    .done fun db => recommend db s lat lon category
  else answers s fun view => recommend view s lat lon category

/-- One SELECT for the salons, and one for the services of each salon that is listed. -/
def showSalonsProgram (search : Option Text) : Program :=
  reads s fun view =>
    match showSalons P.finalSigma view.salons search with
    | .error e => .done fun db => raise db s e
    | .ok listed => readsOn s listed.length (.done fun db => renderTemplate db s "show_salon.html")

def rateSalonProgram (salonId : Nat) (ratingField : Option Text) : Program :=
  let rating := ((ratingField.bind pyInt).getD 0 : Int)
  if rating < 1 ∨ 5 < rating then
    .done fun db => redirectTo db s "show_salons" "Invalid rating value!" "error"
  else reads s fun view =>
    match view.salons.find? salonId with
    | none => .done fun db => redirectTo db s "show_salons" "Salon not found!" "error"
    | some salon =>
      saves s 0 (.setRating salonId (salon.ratingTotal + rating) (salon.ratingCount + 1))
        (.done fun db => redirectTo db s "show_salons" "Thank you for rating!" "success")

def toggleVerifyProgram (salonId : Nat) (enteredKey : Option Text) : Program :=
  if s.verifiedSalonToggleId = some salonId then
    .done fun db => redirectTo db s "show_salons" "Salon already verified!" "info"
  else reads s fun view =>
    match wrongPasskey P (view.salons.find? salonId) enteredKey, view.salons.find? salonId with
    | .error e, _ => .done fun db => raise db s e
    | .ok false, some salon =>
      let s' := { s with verifiedSalonToggleId := some salonId }
      let newStatus := if salon.status = "ON".toList then "OFF".toList else "ON".toList
      saves s' 0 (.setStatus salonId newStatus) (.done fun db =>
        { db
          session := s'
          body := .redirect "show_salons".toList none
          flashes := [⟨"Salon turned ".toList ++ newStatus, "success".toList⟩] })
    | _, _ => .done fun db => redirectTo db s "show_salons" "Wrong Passkey!" "error"

def workerTogglePageProgram (salonId : Nat) : Program :=
  if s.username.isNone || s.verifiedWorkerSalonId ≠ some salonId then
    .done fun db => workerTogglePage db s salonId
  else answers s fun view => workerTogglePage view s salonId

def verifyWorkerAccessPostProgram (salonId : Nat) (enteredKey : Option Text) : Program :=
  if s.verifiedWorkerSalonId = some salonId then
    .done fun db => verifyWorkerAccessPost P db s salonId enteredKey
  else answers s fun view => verifyWorkerAccessPost P view s salonId enteredKey

def updateWorkerCountProgram (salonId : Nat) (field : Option Text) : Program :=
  if s.username.isNone then .done fun db => redirectTo db s "login_page" "Login required" "error"
  else
    let workerCount := (pyInt (field.getD "1".toList)).getD 1
    if workerCount < 1 then
      .done fun db => redirectToSalon db s "worker_toggle_page" salonId
        "Worker count must be at least 1" "error"
    else if !fitsInteger workerCount then .done fun db => raise db s "OverflowError".toList
    else
      saves s 0 (.setWorkerCount salonId workerCount) (.done fun db =>
        { db
          session := s
          body := .redirect "worker_toggle_page".toList (some salonId)
          flashes := [⟨"Worker count updated to ".toList ++
            (toString workerCount).toList, "success".toList⟩] })

/-- The salon is read with its services; the paid rows are only read when all other checks
pass, as they do when no row is there. -/
def bookSlotForSalonProgram (salonId : Nat) (form : Option BookForm) : Program :=
  if s.username.isNone || s.userId.isNone then
    .done fun db => redirectTo db s "login_page" "Please login first to book a slot!" "error"
  else reads s fun view => readsOn s 1 <|
    match view.salons.find? salonId, form with
    | none, _ => .done fun db => redirectTo db s "show_salons" "Salon not found!" "error"
    | some _, none => .done fun db => renderTemplate db s "book_slot.html"
    | some salon, some form =>
      let reply (checked : Except Refusal PendingBooking) : Program := .done fun db =>
        match checked with
        | .ok booking =>
          quietRedirect db { s with pendingBooking := some booking } "payment" (some salonId)
        | .error (.flash message) =>
          { db
            session := s
            body := .redirect "book_slot_for_salon".toList (some salonId)
            flashes := [⟨message, "error".toList⟩] }
        | .error (.raised e) => raise db s e
      let check := fun paid => checkBooking env.now salonId salon.workerCount paid form
      match check fun _ => [] with
      | .error refusal => reply (.error refusal)
      | .ok _ => reads s fun view' => reply (check (view'.paidSlotTimes salonId))

def getBookedSlotsProgram (salonId : Nat) (slotDate : Text) : Program :=
  reads s fun view =>
    match view.salons.find? salonId with
    | none => .done fun db => raise db s "TypeError".toList
    | some salon => reads s fun view' => .done fun db =>
      { db
        session := s
        body := .bookedSlots (bookedCount (view'.paidSlotTimes salonId slotDate))
          (effectiveWorkers salon.workerCount) }

def paymentSuccessProgram (form : PaymentForm) : Program :=
  match s.userId with
  | none => .done fun db => redirectTo db s "login_page" "Please login first!" "error"
  | some userId =>
    let paymentId := form.paymentId.getD []
    let orderId := form.orderId.getD []
    let signature := form.signature.getD []
    if paymentId.isEmpty || orderId.isEmpty || signature.isEmpty then
      .done fun db => redirectTo db s "show_salons" "Payment failed!" "error"
    else if !P.verifyPaymentSignature orderId paymentId signature then
      .done fun db => redirectTo db s "show_salons" "Payment verification failed!" "error"
    else
      match s.pendingBooking with
      | none => .done fun db => redirectTo db s "show_salons" "Booking session expired!" "error"
      | some booking =>
        let failed : Program := .done fun db =>
          redirectTo db s "show_salons" "Something went wrong after payment!" "error"
        match s.username with
        | none => failed
        | some username =>
          .call (.write 0 (.insertSlot (paidRow userId username booking))) fun
            | .error _ => failed
            | .ok _ => .call (.commit 0) fun
              | .error _ => failed
              | .ok _ => .done fun db =>
                redirectTo db { s with pendingBooking := none } "show_salons"
                  "Payment successful! Slot booked." "success"

def program : Request → Program
  | .loginPage (some form) => loginPageProgram P s form
  | .adminDashboard => adminDashboardProgram s
  | .databaseViews => databaseViewsProgram s
  | .deleteUser id => deleteRowProgram s (.deleteUser id)
  | .deleteSalon id => deleteRowProgram s (.deleteSalon id)
  | .deleteService id => deleteRowProgram s (.deleteService id)
  | .deleteBooking id => deleteRowProgram s (.deleteBooking id)
  | .auth page action form => handleAuthProgram P env s action page form
  | .forgotPassword .male mobile => answers s fun view => forgotPasswordMale view s mobile
  | .forgotPassword .female mobile => forgotPasswordFemaleProgram s mobile
  | .resetPassword password => resetPasswordProgram P env s password
  | .registerSalon form => registerSalonProgram P env s form
  | .showSalons search => showSalonsProgram P s search
  | .recommend lat lon category => recommendProgram s lat lon category
  | .rateSalon salonId rating => rateSalonProgram s salonId rating
  | .toggleVerify salonId passKey => toggleVerifyProgram P s salonId passKey
  | .workerTogglePage salonId => workerTogglePageProgram s salonId
  | .verifyWorkerAccessPost salonId passKey => verifyWorkerAccessPostProgram P s salonId passKey
  | .verifyWorkerPage salonId passKey => answers s fun view => verifyWorkerPage P view s salonId passKey
  | .updateWorkerCount salonId workerCount => updateWorkerCountProgram s salonId workerCount
  | .bookSlotForSalon salonId form => bookSlotForSalonProgram env s salonId form
  | .getBookedSlots salonId slotDate => getBookedSlotsProgram s salonId slotDate
  | .paymentSuccess form => paymentSuccessProgram P s form
  -- the other handlers do not touch the database
  | req => .done fun db => handle P env db s req

end Handlers

/-- A request as it arrives, with its cookie. -/
structure Incoming where
  browser : Nat
  cookie : Session
  env : Env
  request : Request

def Request.registersSalon : Request → Bool
  | .registerSalon _ => true
  | _ => false

/-- The handlers that write on a connection which only their last lines close. The others write
within `with get_db_connection() as conn`, which rolls back when an exception leaves it. -/
def Request.closesLast : Request → Bool
  | .deleteUser _ | .deleteSalon _ | .deleteService _ | .deleteBooking _ | .auth _ _ _
  | .resetPassword _ => true
  | _ => false

/-- The server with any number of requests in progress; its side state is the jar of issued
cookies. -/
def site (P : Platform) : Site Incoming Write Text Db (Db → Outcome) (Nat → List Session) where
  program a := program P a.env a.cookie a.request
  exec := Db.exec
  conflict := "IntegrityError".toList
  busy := "OperationalError".toList
  admits jar a := a.cookie = {} ∨ a.cookie ∈ jar a.browser
  keep db jar a x := Function.update jar a.browser ((x db).session :: jar a.browser)
  -- the debugger keeps the frame of an exception, and with it the connection
  closes a x := !(a.request.closesLast && (x initAllDatabases).body.failed)

abbrev Server := State Incoming Write Text Db (Db → Outcome) (Nat → List Session)

abbrev ServerMove := Transactions.Event Incoming Write Text Db (Db → Outcome)

def Server.start (db : Db) (jar : Nat → List Session) : Server := Site.start db jar

/-- The steps of a server that works on any number of requests at a time. -/
abbrev PoolStep (P : Platform) : Server → ServerMove → Server → Prop := Threads.Step (site P).service

end Gloora
