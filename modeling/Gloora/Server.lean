import Gloora.Lib.Runs
import Gloora.Owner
import Gloora.Booking
import Gloora.Search

/-!
# The application as a transition system

`handle` dispatches one request. The session lives in signed cookies: a browser may
present any cookie the app ever issued to it, or none, so old cookies can be sent again.
A step serves one request as a whole.
-/

namespace Gloora
set_option autoImplicit false

open PyText Runs

/-- A request with the parts of it that its handler reads. -/
inductive Request where
  /-- A page that only renders a template, or the GET side of a form. -/
  | page (template : String)
  | uploadedFile (filename : Text)
  | unrouted
  | loginPage (form : Option AuthForm)
  | logout
  | adminDashboard
  | adminLogout
  | databaseViews
  | deleteUser (id : Nat)
  | deleteSalon (id : Nat)
  | deleteService (id : Nat)
  | deleteBooking (id : Nat)
  | auth (page : GenderPage) (action : Option Text) (form : AuthForm)
  | forgotPassword (page : GenderPage) (mobile : Option Text)
  | verifyOtp (otp : Option Text)
  | resetPasswordGet
  | resetPassword (password : Option Text)
  | registerSalon (form : SalonForm)
  | showSalons (search : Option Text)
  | recommend (lat lon category : Option Text)
  | rateSalon (salonId : Nat) (rating : Option Text)
  | toggleVerify (salonId : Nat) (passKey : Option Text)
  | workerTogglePage (salonId : Nat)
  | verifyWorkerPageGet (salonId : Nat)
  | verifyWorkerAccessPost (salonId : Nat) (passKey : Option Text)
  | verifyWorkerPageForm (salonId : Nat)
  | verifyWorkerPage (salonId : Nat) (passKey : Option Text)
  | updateWorkerCount (salonId : Nat) (workerCount : Option Text)
  | bookSlotForSalon (salonId : Nat) (form : Option BookForm)
  | getBookedSlots (salonId : Nat) (slotDate : Text)
  | payment (salonId : Nat)
  | paymentSuccess (form : PaymentForm)
deriving DecidableEq

/-- /recommend. With a category it reads a table `salons` that does not exist; without one
it reads a column `image_path` of every salon, which does not exist either. -/
def recommend (db : Db) (s : Session) (lat lon category : Option Text) : Outcome :=
  if (lat.bind pyFloat).isNone || (lon.bind pyFloat).isNone then
    redirectTo db s "show_salons" "Location not provided." "error"
  else if !(category.getD []).isEmpty then raise db s "OperationalError".toList
  else if !db.salons.rows.isEmpty then raise db s "IndexError".toList
  else renderTemplate db s "show_salon.html"

/-- GET /salons. The services and the rating of each salon are for the template. -/
def listSalons (P : Platform) (db : Db) (s : Session) (search : Option Text) : Outcome :=
  match showSalons P.finalSigma db.salons search with
  | .error e => raise db s e
  | .ok _ => renderTemplate db s "show_salon.html"

def handle (P : Platform) (env : Env) (db : Db) (s : Session) : Request → Outcome
  | .page template => renderTemplate db s template
  | .uploadedFile _ => { db, session := s, body := .file }
  | .unrouted => { db, session := s, body := .unrouted }
  | .loginPage none => quietRedirect db s "male" none
  | .loginPage (some form) => loginPage P db s form
  | .logout => logout db
  | .adminDashboard => adminDashboard db s
  | .adminLogout => adminLogout db
  | .databaseViews => databaseViews db s
  | .deleteUser id => deleteUser env db s id
  | .deleteSalon id => deleteSalon env db s id
  | .deleteService id => deleteService env db s id
  | .deleteBooking id => deleteBooking env db s id
  | .auth page action form => handleAuth P env db s action page form
  | .forgotPassword .male mobile => forgotPasswordMale db s mobile
  | .forgotPassword .female mobile => forgotPasswordFemale db s mobile
  | .verifyOtp otp => verifyOtp db s otp
  | .resetPasswordGet => resetPasswordGet db s
  | .resetPassword password => resetPassword P env db s password
  | .registerSalon form => registerSalon P env db s form
  | .showSalons search => listSalons P db s search
  | .recommend lat lon category => recommend db s lat lon category
  | .rateSalon salonId rating => rateSalon env db s salonId rating
  | .toggleVerify salonId passKey => toggleVerify P env db s salonId passKey
  | .workerTogglePage salonId => workerTogglePage db s salonId
  | .verifyWorkerPageGet _ => verifyWorkerPageGet db s
  | .verifyWorkerAccessPost salonId passKey => verifyWorkerAccessPost P db s salonId passKey
  | .verifyWorkerPageForm _ => verifyWorkerPageForm db s
  | .verifyWorkerPage salonId passKey => verifyWorkerPage P db s salonId passKey
  | .updateWorkerCount salonId workerCount => updateWorkerCount env db s salonId workerCount
  | .bookSlotForSalon salonId form => bookSlotForSalon env db s salonId form
  | .getBookedSlots salonId slotDate => getBookedSlots db s salonId slotDate
  | .payment _ => payment env db s
  | .paymentSuccess form => paymentSuccess P env db s form

/-- The server and the browsers; `jar b` holds the cookies issued to browser `b`, newest
first. -/
structure Sys where
  db : Db
  jar : Nat → List Session

def Sys.init : Sys := ⟨initAllDatabases, fun _ => []⟩

def Sys.cookie (σ : Sys) (b : Nat) : Session := (σ.jar b).headD {}

/-- One request, the cookie it came with, and how it was served. -/
structure Event where
  browser : Nat
  cookie : Session
  env : Env
  request : Request
  before : Db
  outcome : Outcome

structure Step (P : Platform) (σ : Sys) (e : Event) (σ' : Sys) : Prop where
  presented : e.cookie = {} ∨ e.cookie ∈ σ.jar e.browser
  before : e.before = σ.db
  served : e.outcome = handle P e.env e.before e.cookie e.request
  db : σ'.db = e.outcome.db
  jar : σ'.jar = Function.update σ.jar e.browser (e.outcome.session :: σ.jar e.browser)

/-- A step in which browser `b` presents the cookie it holds now: no old cookie of `b` comes
back. Other browsers may present any of theirs. -/
def CurrentStep (P : Platform) (b : Nat) (σ : Sys) (e : Event) (σ' : Sys) : Prop :=
  Step P σ e σ' ∧ (e.browser = b → e.cookie = σ.cookie b)

end Gloora
