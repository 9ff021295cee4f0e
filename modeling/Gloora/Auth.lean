import Gloora.Web

/-!
# Accounts: login, registration, password reset, the administrator
-/

namespace Gloora
set_option autoImplicit false

open PyText

variable (P : Platform) (env : Env) (db : Db) (s : Session)

def adminSession : Session where
  admin := true

def userSession (id : Nat) (u : User) : Session where
  username := some u.username
  email := some u.email
  userId := some id

def Platform.isAdmin (username email password : Text) : Bool :=
  P.adminUsername == some username && P.adminEmail == some email &&
    P.adminPassword == some password

/-- `request.form.get(key, "").strip()` -/
def stripped (field : Option Text) : Text := strip (field.getD [])

structure AuthForm where
  username : Option Text
  email : Option Text
  mobile : Option Text
  password : Option Text
deriving DecidableEq

def loginPage (form : AuthForm) : Outcome :=
  let username := stripped form.username
  let email := stripped form.email
  let password := stripped form.password
  if P.isAdmin username email password then
    redirectTo db adminSession "admin_dashboard" "Admin Login Successful" "success"
  else
    match db.findUser username email with
    | some (id, u) =>
      if P.checkPasswordHash u.password password then
        { db
          session := userSession id u
          body := .redirect "help_page".toList none
          flashes := [⟨"Welcome back, ".toList ++ u.username ++ ['!'], "success".toList⟩] }
      else redirectTo db s "male" "Invalid credentials!" "error"
    | none => redirectTo db s "male" "Invalid credentials!" "error"

def logout : Outcome := redirectTo db {} "gender" "Logged out successfully." "success"

def adminLogout : Outcome := redirectTo db {} "gender" "Admin Logged Out" "success"

def adminDashboard : Outcome :=
  if s.admin then renderTemplate db s "admin_dashboard.html" else quietRedirect db s "male" none

def databaseViews : Outcome :=
  if s.admin then renderTemplate db s "database_views.html"
  else redirectTo db s "gender" "Admin access only!" "error"

/-- The body shared by the four delete routes: one DELETE, then the dashboard. -/
def deleteRow (w : Write) : Outcome :=
  match env.execute 0 db w with
  | .ok db' => quietRedirect db' s "admin_dashboard" none
  | .error e => raise db s e

def deleteUser (id : Nat) : Outcome := deleteRow env db s (.deleteUser id)

def deleteSalon (id : Nat) : Outcome := deleteRow env db s (.deleteSalon id)

def deleteService (id : Nat) : Outcome := deleteRow env db s (.deleteService id)

def deleteBooking (id : Nat) : Outcome := deleteRow env db s (.deleteBooking id)

inductive GenderPage where
  | male
  | female
deriving DecidableEq

def GenderPage.endpoint : GenderPage → String
  | male => "male"
  | female => "female"

/-- `email.lower().endswith("@gmail.com")`. No character outside ASCII has a lower case
form made of these letters, so folding ASCII decides the test. -/
def isGmail (email : Text) : Bool := "@gmail.com".toList.isSuffixOf (asciiLower email)

/-- `handle_auth`, the POST handler of /male and /female. -/
def handleAuth (action : Option Text) (page : GenderPage) (form : AuthForm) : Outcome :=
  let username := stripped form.username
  let email := stripped form.email
  let mobile := stripped form.mobile
  let password := stripped form.password
  if username.isEmpty || email.isEmpty || password.isEmpty then
    redirectTo db s page.endpoint "All fields are mandatory!" "error"
  else if !isGmail email then
    redirectTo db s page.endpoint "Please enter a valid Gmail address." "error"
  else if action = some "register".toList then
    let user : User :=
      { username, email, mobile
        password := P.generatePasswordHash env.salt password
        gender := page.endpoint.toList }
    match env.execute 0 db (.insertUser user) with
    | .ok db' => redirectTo db' s page.endpoint "Registration successful! Please login." "success"
    | .error e =>
      if e = "IntegrityError".toList then
        redirectTo db s page.endpoint "Username, Email, or Mobile already exists!" "error"
      else raise db s e
  else if action = some "login".toList then
    if P.isAdmin username email password then
      redirectTo db adminSession "admin_dashboard" "Admin Login Successful" "success"
    else
      match db.findUser username email with
      | some (id, u) =>
        if P.checkPasswordHash u.password password then
          { db
            session := userSession id u
            body := .redirect "help_page".toList none
            flashes := [⟨"Welcome back, ".toList ++ u.username ++ ['!'], "success".toList⟩] }
        else redirectTo db s page.endpoint "Invalid credentials!" "error"
      | none => redirectTo db s page.endpoint "Invalid credentials!" "error"
  else quietRedirect db s page.endpoint none

def forgotPasswordMale (mobile : Option Text) : Outcome :=
  match mobile.bind fun m => db.users.first? fun u => u.mobile == m && u.gender == "male".toList with
  | none => redirectTo db s "forgot_password_male" "Mobile not found!" "error"
  -- app.py never imports `random`, so no OTP is drawn and nothing after it runs.
  | some _ => raise db s "NameError".toList

def forgotPasswordFemale (mobile : Option Text) : Outcome :=
  let mobile := stripped mobile
  if mobile.isEmpty then
    redirectTo db s "forgot_password_female" "Please enter mobile number!" "error"
  else
    match db.users.first? fun u => u.mobile == mobile && u.gender == "female".toList with
    | none => redirectTo db s "forgot_password_female" "Mobile number not registered!" "error"
    -- as in the male handler
    | some _ => raise db s "NameError".toList

def verifyOtp (otp : Option Text) : Outcome :=
  if s.resetOtp = some (stripped otp) then
    redirectTo db s "reset_password" "OTP verified successfully ✅" "success"
  else redirectTo db s "verify_otp" "Invalid OTP ❌" "error"

/-- POST /reset-password; a missing password makes `generate_password_hash` fail. -/
def resetPassword (password : Option Text) : Outcome :=
  if !s.otpVerified then
    redirectTo db s "forgot_password_male" "OTP verification required!" "error"
  else
    match s.resetMobile with
    | none | some [] => redirectTo db s "forgot_password_male" "Session expired. Try again." "error"
    | some mobile =>
      match password with
      | none => raise db s "AttributeError".toList
      | some p =>
        match env.execute 0 db (.setPassword mobile (P.generatePasswordHash env.salt p)) with
        | .error e => raise db s e
        | .ok db' =>
          redirectTo db' { s with resetMobile := none, resetOtp := none, otpVerified := false }
            "male" "Password updated successfully! Please login." "success"

def resetPasswordGet : Outcome :=
  if s.otpVerified then renderTemplate db s "reset_password.html"
  else redirectTo db s "forgot_password_male" "OTP verification required!" "error"

end Gloora
