import Gloora.Auth

/-!
# Salons: registration, rating, opening and worker counts
-/

namespace Gloora
set_option autoImplicit false

open PyText Binary64

variable (P : Platform) (env : Env) (db : Db) (s : Session)

section Images

def allowedExt : List Text :=
  ["png".toList, "jpg".toList, "jpeg".toList, "gif".toList, "webp".toList]

/-- `"." in filename and filename.rsplit(".", 1)[1].lower() in ALLOWED_EXT` -/
def allowedFile (filename : Text) : Bool :=
  filename.contains '.' &&
    allowedExt.contains (asciiLower (filename.reverse.takeWhile fun c => c != '.').reverse)

def windowsDeviceFiles : List Text :=
  ["CON".toList, "PRN".toList, "AUX".toList, "NUL".toList] ++
    (List.range 10).map (fun i => "COM".toList ++ Nat.toDigits 10 i) ++
    (List.range 10).map fun i => "LPT".toList ++ Nat.toDigits 10 i

def splitSpace (s : Text) : List Text := (s.splitOnP isSpace).filter fun w => !w.isEmpty

def isEdge (c : Char) : Bool := c == '.' || c == '_'

/-- werkzeug's `secure_filename`. -/
def secureFilename (filename : Text) : Text :=
  let ascii := (P.nfkdAscii filename).map fun c =>
    if c = '/' ∨ (P.windows ∧ c = '\\') then ' ' else c
  let joined := ['_'].intercalate (splitSpace ascii)
  let kept := joined.filter fun c => c.isAlphanum || c == '_' || c == '.' || c == '-'
  let name := ((kept.dropWhile isEdge).reverse.dropWhile isEdge).reverse
  let device := (name.takeWhile fun c => c != '.').map Char.toUpper
  if P.windows && !name.isEmpty && windowsDeviceFiles.contains device then '_' :: name else name

/-- `save_image`: the path stored for an upload with this file name, if it is saved. -/
def saveImage (filename : Option Text) : Option Text :=
  match filename with
  | none | some [] => none
  | some name =>
    if allowedFile name then
      some ("uploads/".toList ++ (Nat.toDigits 10 env.unixTime ++ '_' :: secureFilename P name))
    else none

end Images

section Registration

structure SalonForm where
  name : Option Text
  address : Option Text
  city : Option Text
  state : Option Text
  contact : Option Text
  passKey : Option Text
  workerCount : Option Text
  image : Option Text
  serviceNames : List Text
  servicePrices : List Text
deriving DecidableEq

/-- A pair of `service_name[]` and `service_price[]`, unless the loop skips it. -/
def validService (name price : Text) : Option (Text × Double) :=
  let name := strip name
  let price := strip price
  if name.isEmpty || price.isEmpty then none
  else (pyFloat price).map fun value => (name, value)

def validServices (form : SalonForm) : List (Text × Double) :=
  (form.serviceNames.zip form.servicePrices).filterMap fun p => validService p.1 p.2

def workerCountField (field : Option Text) : Int :=
  match field with
  | none => 1
  | some text =>
    match pyInt text with
    | none => 1
    | some n => if n < 1 then 1 else n

/-- The loop over `valid_services`. `done` is the last committed state and `cur` the state
of the open transaction, which an exception rolls back; `k` numbers the writes. -/
def insertServices (salonId : Nat) : Nat → List (Text × Double) → (done cur : Db) →
    Db × Option Text
  | k, [], done, cur => if env.accepts k then (cur, none) else (done, "OperationalError".toList)
  | k, (name, price) :: rest, done, cur =>
    match cur.services.first? (· == name) with
    | some (serviceId, _) =>
      match env.execute k cur (.insertSalonService ⟨salonId, serviceId, sqliteReal price⟩) with
      | .error e => (done, e)
      | .ok cur' => insertServices salonId (k + 1) rest done cur'
    | none =>
      match env.execute k cur (.insertService name) with
      | .error e => (done, e)
      | .ok cur' =>
        -- this commit also keeps the salon_services rows inserted so far
        match env.execute (k + 1) cur'
            (.insertSalonService ⟨salonId, cur'.services.seq, sqliteReal price⟩) with
        | .error e => (cur', e)
        | .ok cur'' => insertServices salonId (k + 2) rest cur' cur''

def mandatory (form : SalonForm) : Bool :=
  !(stripped form.name).isEmpty && !(stripped form.city).isEmpty &&
    !(stripped form.state).isEmpty && !(stripped form.contact).isEmpty &&
    !(stripped form.passKey).isEmpty

/-- The row the first INSERT writes; columns it leaves out take their defaults. -/
def newSalon (form : SalonForm) : Salon where
  salonName := stripped form.name
  address := some (stripped form.address)
  city := stripped form.city
  state := stripped form.state
  lat := none
  lng := none
  contact := stripped form.contact
  status := "ON".toList
  ownerUsername := s.username.getD []
  ownerId := s.userId
  email := s.email.getD []
  passKey := P.generatePasswordHash env.salt (stripped form.passKey)
  ratingTotal := 0
  ratingCount := 0
  image := saveImage P env form.image
  workerCount := some (workerCountField form.workerCount)

def registerSalon (form : SalonForm) : Outcome :=
  if !mandatory form then
    { db
      session := s
      body := .page "register_salon.html".toList
      flashes := [⟨"All fields marked with * are mandatory!".toList, "error".toList⟩] }
  else if (validServices form).isEmpty then
    { db
      session := s
      body := .page "register_salon.html".toList
      flashes := [⟨"Please add at least one valid service with price!".toList, "error".toList⟩] }
  else if !fitsInteger (workerCountField form.workerCount) then raise db s "OverflowError".toList
  else
    match env.execute 0 db (.insertSalon (newSalon P env s form)) with
    | .error e => raise db s e
    | .ok db' =>
      match insertServices env db'.salons.seq 1 (validServices form) db' db' with
      | (db'', some e) => raise db'' s e
      | (db'', none) =>
        redirectTo db'' s "show_salons" "Salon registered successfully!" "success"

end Registration

def rateSalon (salonId : Nat) (ratingField : Option Text) : Outcome :=
  let rating := ((ratingField.bind pyInt).getD 0 : Int)
  if rating < 1 ∨ 5 < rating then redirectTo db s "show_salons" "Invalid rating value!" "error"
  else
    match db.salons.find? salonId with
    | none => redirectTo db s "show_salons" "Salon not found!" "error"
    | some salon =>
      match env.execute 0 db
          (.setRating salonId (salon.ratingTotal + rating) (salon.ratingCount + 1)) with
      | .error e => raise db s e
      | .ok db' => redirectTo db' s "show_salons" "Thank you for rating!" "success"

/-- `not salon or not check_password_hash(salon["pass_key"], entered_key)`; hashing a
missing key is an exception. -/
def wrongPasskey (salon : Option Salon) (enteredKey : Option Text) : Except Text Bool :=
  match salon, enteredKey with
  | none, _ => .ok true
  | some _, none => .error "AttributeError".toList
  | some r, some key => .ok (!P.checkPasswordHash r.passKey key)

def toggleVerify (salonId : Nat) (enteredKey : Option Text) : Outcome :=
  if s.verifiedSalonToggleId = some salonId then
    redirectTo db s "show_salons" "Salon already verified!" "info"
  else
    match wrongPasskey P (db.salons.find? salonId) enteredKey, db.salons.find? salonId with
    | .error e, _ => raise db s e
    | .ok false, some salon =>
      let s' := { s with verifiedSalonToggleId := some salonId }
      let newStatus := if salon.status = "ON".toList then "OFF".toList else "ON".toList
      match env.execute 0 db (.setStatus salonId newStatus) with
      | .error e => raise db s' e
      | .ok db' =>
        { db := db'
          session := s'
          body := .redirect "show_salons".toList none
          flashes := [⟨"Salon turned ".toList ++ newStatus, "success".toList⟩] }
    | _, _ => redirectTo db s "show_salons" "Wrong Passkey!" "error"

def workerTogglePage (salonId : Nat) : Outcome :=
  if s.username.isNone then redirectTo db s "login_page" "Login required" "error"
  else if s.verifiedWorkerSalonId ≠ some salonId then
    redirectToSalon db s "verify_worker_page_get" salonId "Passkey verification required" "error"
  else
    match db.salons.find? salonId with
    | none => redirectTo db s "show_salons" "Salon not found!" "error"
    | some salon =>
      if salon.workerCount.isNone then raise db s "TypeError".toList
      else renderTemplate db s "worker_toggle.html"

/-- GET /verify_worker_page/<salon_id>; templates/ has no verify_worker_passkey.html. -/
def verifyWorkerPageGet : Outcome := raise db s "TemplateNotFound".toList

def verifyWorkerAccessPost (salonId : Nat) (enteredKey : Option Text) : Outcome :=
  if s.verifiedWorkerSalonId = some salonId then
    quietRedirect db s "worker_toggle_page" (some salonId)
  else
    match wrongPasskey P (db.salons.find? salonId) enteredKey with
    | .error e => raise db s e
    | .ok true => redirectTo db s "show_salons" "Wrong Passkey!" "error"
    | .ok false =>
      quietRedirect db { s with verifiedWorkerSalonId := some salonId }
        "worker_toggle_page" (some salonId)

def verifyWorkerPage (salonId : Nat) (enteredKey : Option Text) : Outcome :=
  match wrongPasskey P (db.salons.find? salonId) enteredKey with
  | .error e => raise db s e
  | .ok true =>
    redirectToSalon db s "verify_worker_page" salonId "Wrong Passkey!" "error"
  | .ok false =>
    redirectToSalon db { s with verifiedSalonId := some salonId }
      "worker_toggle_page" salonId "Passkey verified!" "success"

/-- GET /verify_worker/<salon_id>; templates/ has no verify_worker.html. -/
def verifyWorkerPageForm : Outcome := raise db s "TemplateNotFound".toList

def updateWorkerCount (salonId : Nat) (field : Option Text) : Outcome :=
  if s.username.isNone then redirectTo db s "login_page" "Login required" "error"
  else
    let workerCount := (pyInt (field.getD "1".toList)).getD 1
    if workerCount < 1 then
      redirectToSalon db s "worker_toggle_page" salonId "Worker count must be at least 1" "error"
    else if !fitsInteger workerCount then raise db s "OverflowError".toList
    else
      match env.execute 0 db (.setWorkerCount salonId workerCount) with
      | .error e => raise db s e
      | .ok db' =>
        { db := db'
          session := s
          body := .redirect "worker_toggle_page".toList (some salonId)
          flashes := [⟨"Worker count updated to ".toList ++
            (toString workerCount).toList, "success".toList⟩] }

end Gloora
