import Gloora.Lib.Keyed
import Gloora.Lib.PyText

/-!
# The database

The tables of `init_all_databases` and the statements the handlers run on them. Columns
that no handler reads or writes are left out (`salons_data.price`, the table
`slot_reminders`). `Db.exec` is one statement with its commit; it enforces the UNIQUE and
FOREIGN KEY constraints and carries out ON DELETE CASCADE, which needs a row to delete.
-/

namespace Gloora
set_option autoImplicit false

open PyText Binary64 Keyed

/-- A row of `users_data`; `password` holds the hash. -/
structure User where
  username : Text
  email : Text
  mobile : Text
  password : Text
  gender : Text
deriving DecidableEq

/-- A row of `salons_data`. `ownerId` is `none` for the empty text that
`session.get("user_id", "")` stores without a login. -/
structure Salon where
  salonName : Text
  address : Option Text
  city : Text
  state : Text
  lat : Option Double
  lng : Option Double
  contact : Text
  status : Text
  ownerUsername : Text
  ownerId : Option Nat
  email : Text
  passKey : Text
  ratingTotal : Int
  ratingCount : Int
  image : Option Text
  workerCount : Option Int
deriving DecidableEq

structure SalonService where
  salonId : Nat
  serviceId : Nat
  price : Option Double
deriving DecidableEq

structure Slot where
  userId : Nat
  username : Text
  salonId : Nat
  serviceId : Option Nat
  slotDate : Text
  slotTime : Option Text
  startTime : Text
  endTime : Text
  selectedServices : Text
  totalPrice : Option Double
  paymentStatus : Text
deriving DecidableEq

/-- `services` maps the key to `service_name`. -/
structure Db where
  users : Table User
  salons : Table Salon
  services : Table Text
  salonServices : Table SalonService
  slots : Table Slot

def initAllDatabases : Db := ⟨.empty, .empty, .empty, .empty, .empty⟩

/-- SQLite stores a NaN as NULL. -/
def sqliteReal : Double → Option Double
  | .nan => none
  | x => some x

/-- A Python int that fits an INTEGER column; others raise an `OverflowError`. -/
def fitsInteger (n : Int) : Bool := -2 ^ 63 ≤ n && n < 2 ^ 63

/-- A statement that writes, with the values bound to it. -/
inductive Write where
  | insertUser (u : User)
  | setPassword (mobile hash : Text)
  | deleteUser (id : Nat)
  | insertSalon (r : Salon)
  | setRating (id : Nat) (total count : Int)
  | setStatus (id : Nat) (status : Text)
  | setWorkerCount (id : Nat) (count : Int)
  | deleteSalon (id : Nat)
  | insertService (name : Text)
  | insertSalonService (r : SalonService)
  | deleteService (id : Nat)
  | insertSlot (r : Slot)
  | deleteBooking (id : Nat)
deriving DecidableEq

namespace Db

def clashes (u v : User) : Bool :=
  v.username == u.username || v.email == u.email || v.mobile == u.mobile

def refersTo (db : Db) (r : Slot) : Bool :=
  decide (db.users.HasKey r.userId) && decide (db.salons.HasKey r.salonId) &&
    r.serviceId.all fun id => decide (db.services.HasKey id)

def setSalon (db : Db) (id : Nat) (f : Salon → Salon) : Db :=
  { db with salons := db.salons.update (fun k _ => k == id) f }

/-- One statement, committed; `none` is an `IntegrityError`. -/
def exec (db : Db) : Write → Option Db
  | .insertUser u =>
    if (db.users.first? (clashes u)).isSome then none
    else some { db with users := db.users.insert u }
  | .setPassword mobile hash =>
    some { db with
      users := db.users.update (fun _ u => u.mobile == mobile) fun u =>
        { u with password := hash } }
  | .deleteUser id =>
    if db.users.HasKey id then
      some { db with
        users := db.users.delete fun k _ => k == id
        slots := db.slots.delete fun _ r => r.userId == id }
    else some db
  | .insertSalon r => some { db with salons := db.salons.insert r }
  | .setRating id total count =>
    some (db.setSalon id fun r => { r with ratingTotal := total, ratingCount := count })
  | .setStatus id status => some (db.setSalon id fun r => { r with status := status })
  | .setWorkerCount id count =>
    some (db.setSalon id fun r => { r with workerCount := some count })
  | .deleteSalon id =>
    if db.salons.HasKey id then
      some { db with
        salons := db.salons.delete fun k _ => k == id
        salonServices := db.salonServices.delete fun _ r => r.salonId == id
        slots := db.slots.delete fun _ r => r.salonId == id }
    else some db
  | .insertService name =>
    if (db.services.first? (· == name)).isSome then none
    else some { db with services := db.services.insert name }
  | .insertSalonService r =>
    if db.salons.HasKey r.salonId ∧ db.services.HasKey r.serviceId then
      some { db with salonServices := db.salonServices.insert r }
    else none
  | .deleteService id =>
    if db.services.HasKey id then
      some { db with
        services := db.services.delete fun k _ => k == id
        salonServices := db.salonServices.delete fun _ r => r.serviceId == id
        slots := db.slots.delete fun _ r => r.serviceId == some id }
    else some db
  | .insertSlot r => if db.refersTo r then some { db with slots := db.slots.insert r } else none
  | .deleteBooking id => some { db with slots := db.slots.delete fun k _ => k == id }

/-- `SELECT * FROM users_data WHERE username=? AND email=?`, then `fetchone`. -/
def findUser (db : Db) (username email : Text) : Option (Nat × User) :=
  db.users.first? fun u => u.username == username && u.email == email

def paidSlotTimes (db : Db) (salonId : Nat) (slotDate : Text) : List (Option Text) :=
  (db.slots.select fun r => r.salonId == salonId && r.slotDate == slotDate &&
    r.paymentStatus == "paid".toList).map Slot.slotTime

end Db

/-- A service of a salon as `get_salon_services` returns it. -/
structure ServiceItem where
  id : Nat
  name : Text
  price : Option Double
deriving DecidableEq

def getSalonServices (db : Db) (salonId : Nat) : List ServiceItem :=
  (db.salonServices.select fun r => r.salonId == salonId).filterMap fun r =>
    (db.services.find? r.serviceId).map fun name => ⟨r.serviceId, name, r.price⟩

end Gloora
