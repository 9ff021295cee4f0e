import Gloora.Lib.Related
import Gloora.Play

/-!
# How keys are stored

Passwords and passkeys are kept as hashes. Another way to store them, with other salts, leads
from every run of the app to a run with the same requests and the same replies, in which the
tables differ in nothing but the stored keys. In particular the app behaves as if its tables
held the keys themselves.
-/

namespace Gloora
set_option autoImplicit false

open PyText Runs Keyed Keyed.Table

/-- A way to store keys that accepts the very key that was stored and no other. Of scrypt this is
true up to its few confusions, such as short keys that differ in NULs at their end. -/
structure Hashing where
  generate : Nat → Text → Text
  check : Text → Text → Bool
  check_generate : ∀ salt p q, check (generate salt p) q = true ↔ q = p

def Platform.withHashing (P : Platform) (H : Hashing) : Platform :=
  { P with
    generatePasswordHash := H.generate
    checkPasswordHash := H.check
    check_generate := H.check_generate }

theorem check_itself (_salt : Nat) (p q : Text) : (p == q) = true ↔ q = p := by
  rw [beq_iff_eq]
  exact eq_comm

/-- The keys themselves are stored. -/
def Hashing.ideal : Hashing where
  generate _ p := p
  check hash q := hash == q
  check_generate := check_itself

section Relation
variable (P : Platform) (H : Hashing)

/-- Two stored keys that nobody can tell apart by trying keys. -/
def SameKey (h h' : Text) : Prop := ∀ q, P.checkPasswordHash h q = H.check h' q

def SameUser (u u' : User) : Prop :=
  u' = { u with password := u'.password } ∧ SameKey P H u.password u'.password

def SameSalon (r r' : Salon) : Prop :=
  r' = { r with passKey := r'.passKey } ∧ SameKey P H r.passKey r'.passKey

/-- Tables that differ in nothing but how the keys are stored. -/
structure SameTables (db db' : Db) : Prop where
  users : Related (SameUser P H) db.users db'.users
  salons : Related (SameSalon P H) db.salons db'.salons
  services : db.services = db'.services
  salonServices : db.salonServices = db'.salonServices
  slots : db.slots = db'.slots

/-- Statements that write the same but for stored keys. -/
inductive SameWrite : Write → Write → Prop where
  | insertUser {u u' : User} (h : SameUser P H u u') : SameWrite (.insertUser u) (.insertUser u')
  | setPassword {hash hash' : Text} (mobile : Text) (h : SameKey P H hash hash') :
      SameWrite (.setPassword mobile hash) (.setPassword mobile hash')
  | insertSalon {r r' : Salon} (h : SameSalon P H r r') :
      SameWrite (.insertSalon r) (.insertSalon r')
  | deleteUser (id : Nat) : SameWrite (.deleteUser id) (.deleteUser id)
  | setRating (id : Nat) (total count : Int) :
      SameWrite (.setRating id total count) (.setRating id total count)
  | setStatus (id : Nat) (status : Text) : SameWrite (.setStatus id status) (.setStatus id status)
  | setWorkerCount (id : Nat) (count : Int) :
      SameWrite (.setWorkerCount id count) (.setWorkerCount id count)
  | deleteSalon (id : Nat) : SameWrite (.deleteSalon id) (.deleteSalon id)
  | insertService (name : Text) : SameWrite (.insertService name) (.insertService name)
  | insertSalonService (r : SalonService) :
      SameWrite (.insertSalonService r) (.insertSalonService r)
  | deleteService (id : Nat) : SameWrite (.deleteService id) (.deleteService id)
  | insertSlot (r : Slot) : SameWrite (.insertSlot r) (.insertSlot r)
  | deleteBooking (id : Nat) : SameWrite (.deleteBooking id) (.deleteBooking id)

/-- Replies that are the same, over tables that are. -/
structure SameReply (o o' : Outcome) : Prop where
  db : SameTables P H o.db o'.db
  session : o'.session = o.session
  body : o'.body = o.body
  flashes : o'.flashes = o.flashes
  order : o'.order = o.order

end Relation

section Tables
variable {P : Platform} {H : Hashing} {db db' : Db} {w w' : Write} {u u' : User} {r r' : Salon}

theorem sameKey_generate (salt salt' : Nat) (p : Text) :
    SameKey P H (P.generatePasswordHash salt p) (H.generate salt' p) := by
  intro q
  rw [Bool.eq_iff_iff, P.check_generate, H.check_generate]

theorem SameUser.eqs (h : SameUser P H u u') : u'.username = u.username ∧ u'.email = u.email ∧
    u'.mobile = u.mobile ∧ u'.gender = u.gender := by
  rw [h.1]
  exact ⟨rfl, rfl, rfl, rfl⟩

theorem SameSalon.eqs (h : SameSalon P H r r') : r'.ratingTotal = r.ratingTotal ∧
    r'.ratingCount = r.ratingCount ∧ r'.status = r.status ∧ r'.workerCount = r.workerCount := by
  rw [h.1]
  exact ⟨rfl, rfl, rfl, rfl⟩

theorem SameSalon.update {f : Salon → Salon} (h : SameSalon P H r r')
    (hkey : ∀ r, (f r).passKey = r.passKey)
    (hrest : ∀ r k, f { r with passKey := k } = { f r with passKey := k }) :
    SameSalon P H (f r) (f r') := by
  obtain ⟨heq, hsame⟩ := h
  constructor
  · rw [hkey, heq, hrest]
  · rw [hkey, hkey]
    exact hsame

theorem SameTables.setSalon (h : SameTables P H db db') (id : Nat) {f : Salon → Salon}
    (hkey : ∀ r, (f r).passKey = r.passKey)
    (hrest : ∀ r k, f { r with passKey := k } = { f r with passKey := k }) :
    SameTables P H (db.setSalon id f) (db'.setSalon id f) := by
  have hsalons : Related (SameSalon P H) (db.salons.update (fun k _ => k == id) f)
      (db'.salons.update (fun k _ => k == id) f) :=
    h.salons.update (fun _ _ _ _ => rfl) fun _ _ hr => hr.update hkey hrest
  exact ⟨h.users, hsalons, h.services, h.salonServices, h.slots⟩

theorem SameTables.refersTo (h : SameTables P H db db') (r : Slot) :
    db'.refersTo r = db.refersTo r := by
  unfold Db.refersTo
  simp only [h.users.hasKey, h.salons.hasKey, h.services]

/-- A statement does the same to both. -/
theorem SameTables.exec (h : SameTables P H db db') (hw : SameWrite P H w w') :
    Option.Rel (SameTables P H) (db.exec w) (db'.exec w') := by
  cases hw with
  | @insertUser u u' hu =>
    obtain ⟨hname, hemail, hmobile, -⟩ := hu.eqs
    have hclash : (db.users.first? (Db.clashes u)).isSome =
        (db'.users.first? (Db.clashes u')).isSome := by
      apply h.users.isSome_first?
      intro v v' hv
      obtain ⟨hname', hemail', hmobile', -⟩ := hv.eqs
      unfold Db.clashes
      rw [hname, hemail, hmobile, hname', hemail', hmobile']
    simp only [Db.exec, ← hclash]
    split
    · exact .none
    · exact .some ⟨h.users.insert hu, h.salons, h.services, h.salonServices, h.slots⟩
  | @setPassword hash hash' mobile hkey =>
    have husers : Related (SameUser P H)
        (db.users.update (fun _ v => v.mobile == mobile) fun v => { v with password := hash })
        (db'.users.update (fun _ v => v.mobile == mobile)
          fun v => { v with password := hash' }) := by
      refine h.users.update ?_ ?_
      · intro _ v v' hv
        rw [hv.eqs.2.2.1]
      · intro v v' hv
        refine ⟨?_, hkey⟩
        rw [hv.1]
    exact .some ⟨husers, h.salons, h.services, h.salonServices, h.slots⟩
  | insertSalon hr =>
    exact .some ⟨h.users, h.salons.insert hr, h.services, h.salonServices, h.slots⟩
  | deleteUser id =>
    have husers : Related (SameUser P H) (db.users.delete fun k _ => k == id)
        (db'.users.delete fun k _ => k == id) := h.users.delete fun _ _ _ _ => rfl
    simp only [Db.exec, ← h.users.hasKey id, ← h.slots]
    split
    · exact .some ⟨husers, h.salons, h.services, h.salonServices, rfl⟩
    · exact .some h
  | setRating id total count => exact .some (h.setSalon id (fun _ => rfl) fun _ _ => rfl)
  | setStatus id status => exact .some (h.setSalon id (fun _ => rfl) fun _ _ => rfl)
  | setWorkerCount id count => exact .some (h.setSalon id (fun _ => rfl) fun _ _ => rfl)
  | deleteSalon id =>
    have hsalons : Related (SameSalon P H) (db.salons.delete fun k _ => k == id)
        (db'.salons.delete fun k _ => k == id) := h.salons.delete fun _ _ _ _ => rfl
    simp only [Db.exec, ← h.salons.hasKey id, ← h.slots, ← h.salonServices]
    split
    · exact .some ⟨h.users, hsalons, h.services, rfl, rfl⟩
    · exact .some h
  | insertService name =>
    simp only [Db.exec, ← h.services]
    split
    · exact .none
    · exact .some ⟨h.users, h.salons, rfl, h.salonServices, h.slots⟩
  | insertSalonService r =>
    simp only [Db.exec, ← h.salons.hasKey r.salonId, ← h.services, ← h.salonServices]
    split
    · exact .some ⟨h.users, h.salons, rfl, rfl, h.slots⟩
    · exact .none
  | deleteService id =>
    simp only [Db.exec, ← h.services, ← h.salonServices, ← h.slots]
    split
    · exact .some ⟨h.users, h.salons, rfl, rfl, rfl⟩
    · exact .some h
  | insertSlot r =>
    simp only [Db.exec, h.refersTo r, ← h.slots]
    split
    · exact .some ⟨h.users, h.salons, h.services, h.salonServices, rfl⟩
    · exact .none
  | deleteBooking id =>
    simp only [Db.exec, ← h.slots]
    exact .some ⟨h.users, h.salons, h.services, h.salonServices, rfl⟩

theorem SameTables.reply (h : SameTables P H db db') (s : Session) (body : Body)
    (flashes : List Flash) (order : Option Order) :
    SameReply P H ⟨db, s, body, flashes, order⟩ ⟨db', s, body, flashes, order⟩ :=
  ⟨h, rfl, rfl, rfl, rfl⟩

end Tables

/-- The same moment with another salt. -/
def Env.resalt (env : Env) (salt : Nat) : Env := { env with salt }

@[simp] theorem resalt_now (env : Env) (salt : Nat) : (env.resalt salt).now = env.now := rfl

@[simp] theorem resalt_accepts (env : Env) (salt : Nat) :
    (env.resalt salt).accepts = env.accepts := rfl

@[simp] theorem resalt_createOrder (env : Env) (salt : Nat) :
    (env.resalt salt).createOrder = env.createOrder := rfl

section Handlers
variable {P : Platform} {H : Hashing} {env : Env} {salt : Nat} {db db' : Db} {s : Session}

theorem execute_same (env : Env) (salt : Nat) {w w' : Write} (h : SameTables P H db db')
    (hw : SameWrite P H w w') (k : Nat) :
    (∃ e, env.execute k db w = .error e ∧ (env.resalt salt).execute k db' w' = .error e) ∨
    ∃ d d', env.execute k db w = .ok d ∧ (env.resalt salt).execute k db' w' = .ok d' ∧
      SameTables P H d d' := by
  have hrel := h.exec hw
  unfold Env.execute
  rw [resalt_accepts]
  cases env.accepts k with
  | false => exact .inl ⟨_, rfl, rfl⟩
  | true =>
    rcases rel_cases hrel with ⟨hd, hd'⟩ | ⟨d, d', hd, hd', hsame⟩
    · rw [hd, hd']
      exact .inl ⟨_, rfl, rfl⟩
    · rw [hd, hd']
      exact .inr ⟨d, d', rfl, rfl, hsame⟩

theorem SameTables.findUser (h : SameTables P H db db') (username email : Text) :
    Option.Rel (Beside (SameUser P H)) (db.findUser username email)
      (db'.findUser username email) := by
  apply h.users.first?
  intro u u' hu
  rw [hu.eqs.1, hu.eqs.2.1]

/-- How both login forms end. -/
theorem opening_same (h : SameTables P H db db') (username email password : Text)
    {refused refused' : Outcome} (hrefused : SameReply P H refused refused') :
    SameReply P H
      (match db.findUser username email with
        | some (id, u) =>
          if P.checkPasswordHash u.password password then
            { db
              session := userSession id u
              body := .redirect "help_page".toList none
              flashes := [⟨"Welcome back, ".toList ++ u.username ++ ['!'], "success".toList⟩] }
          else refused
        | none => refused)
      (match db'.findUser username email with
        | some (id, u) =>
          if H.check u.password password then
            { db := db'
              session := userSession id u
              body := .redirect "help_page".toList none
              flashes := [⟨"Welcome back, ".toList ++ u.username ++ ['!'], "success".toList⟩] }
          else refused'
        | none => refused') := by
  rcases rel_cases (h.findUser username email) with
    ⟨ha, hb⟩ | ⟨⟨id, u⟩, ⟨id', u'⟩, ha, hb, hid, hu⟩
  · rw [ha, hb]
    exact hrefused
  · obtain rfl : id = id' := hid
    obtain ⟨hname, hemail, -⟩ := hu.eqs
    simp only [ha, hb, hu.2 password, userSession]
    rw [hname, hemail]
    split
    · exact h.reply _ _ _ _
    · exact hrefused

theorem loginPage_same (h : SameTables P H db db') (form : AuthForm) :
    SameReply P H (loginPage P db s form) (loginPage (P.withHashing H) db' s form) := by
  unfold loginPage
  change SameReply P H (if P.isAdmin _ _ _ then _ else _) (if P.isAdmin _ _ _ then _ else _)
  split
  · exact h.reply _ _ _ _
  · exact opening_same h _ _ _ (h.reply _ _ _ _)

theorem deleteRow_same (h : SameTables P H db db') {w : Write} (hw : SameWrite P H w w) :
    SameReply P H (deleteRow env db s w) (deleteRow (env.resalt salt) db' s w) := by
  unfold deleteRow
  rcases execute_same env salt h hw 0 with ⟨e, he, he'⟩ | ⟨d, d', hd, hd', hsame⟩
  · rw [he, he']
    exact h.reply _ _ _ _
  · rw [hd, hd']
    exact hsame.reply _ _ _ _

theorem handleAuth_same (h : SameTables P H db db') (action : Option Text) (page : GenderPage)
    (form : AuthForm) : SameReply P H (handleAuth P env db s action page form)
      (handleAuth (P.withHashing H) (env.resalt salt) db' s action page form) := by
  unfold handleAuth
  simp only
  split
  · exact h.reply _ _ _ _
  split
  · exact h.reply _ _ _ _
  split
  · have hw : SameWrite P H
        (.insertUser ⟨stripped form.username, stripped form.email, stripped form.mobile,
          P.generatePasswordHash env.salt (stripped form.password), page.endpoint.toList⟩)
        (.insertUser ⟨stripped form.username, stripped form.email, stripped form.mobile,
          (P.withHashing H).generatePasswordHash (env.resalt salt).salt (stripped form.password),
          page.endpoint.toList⟩) :=
      .insertUser ⟨rfl, sameKey_generate env.salt salt (stripped form.password)⟩
    rcases execute_same env salt h hw 0 with ⟨e, he, he'⟩ | ⟨d, d', hd, hd', hsame⟩
    · rw [he, he']
      simp only
      split
      · exact h.reply _ _ _ _
      · exact h.reply _ _ _ _
    · rw [hd, hd']
      exact hsame.reply _ _ _ _
  split
  · change SameReply P H (if P.isAdmin _ _ _ then _ else _) (if P.isAdmin _ _ _ then _ else _)
    split
    · exact h.reply _ _ _ _
    · exact opening_same h _ _ _ (h.reply _ _ _ _)
  · exact h.reply _ _ _ _

theorem SameTables.findMobile (h : SameTables P H db db') (mobile gender : Text) :
    Option.Rel (Beside (SameUser P H))
      (db.users.first? fun u => u.mobile == mobile && u.gender == gender)
      (db'.users.first? fun u => u.mobile == mobile && u.gender == gender) := by
  apply h.users.first?
  intro u u' hu
  rw [hu.eqs.2.2.1, hu.eqs.2.2.2]

theorem resetPassword_same (h : SameTables P H db db') (password : Option Text) :
    SameReply P H (resetPassword P env db s password)
      (resetPassword (P.withHashing H) (env.resalt salt) db' s password) := by
  unfold resetPassword
  split
  · exact h.reply _ _ _ _
  split
  · exact h.reply _ _ _ _
  · exact h.reply _ _ _ _
  · rename_i mobile _ _
    split
    · exact h.reply _ _ _ _
    · rename_i p
      have hw : SameWrite P H (.setPassword mobile (P.generatePasswordHash env.salt p))
          (.setPassword mobile
            ((P.withHashing H).generatePasswordHash (env.resalt salt).salt p)) :=
        .setPassword mobile (sameKey_generate env.salt salt p)
      rcases execute_same env salt h hw 0 with ⟨e, he, he'⟩ | ⟨d, d', hd, hd', hsame⟩
      · rw [he, he']
        exact h.reply _ _ _ _
      · rw [hd, hd']
        exact hsame.reply _ _ _ _

theorem insertServices_same (env : Env) (salt salonId k : Nat)
    (services : List (Text × Binary64.Double)) {done done' cur cur' : Db}
    (hdone : SameTables P H done done') (hcur : SameTables P H cur cur') :
    (insertServices (env.resalt salt) salonId k services done' cur').2 =
        (insertServices env salonId k services done cur).2 ∧
      SameTables P H (insertServices env salonId k services done cur).1
        (insertServices (env.resalt salt) salonId k services done' cur').1 := by
  induction services generalizing k done done' cur cur' with
  | nil =>
    unfold insertServices
    rw [resalt_accepts]
    split
    · exact ⟨rfl, hcur⟩
    · exact ⟨rfl, hdone⟩
  | cons service services ih =>
    obtain ⟨name, price⟩ := service
    rw [insertServices, insertServices, ← hcur.services]
    cases cur.services.first? (· == name) with
    | some found =>
      obtain ⟨serviceId, _⟩ := found
      rcases execute_same env salt hcur (.insertSalonService ⟨salonId, serviceId, sqliteReal price⟩)
        k with ⟨e, he, he'⟩ | ⟨d, d', hd, hd', hsame⟩
      · simp only [he, he']
        exact ⟨trivial, hdone⟩
      · simp only [hd, hd']
        exact ih (k + 1) hdone hsame
    | none =>
      rcases execute_same env salt hcur (.insertService name) k
        with ⟨e, he, he'⟩ | ⟨d, d', hd, hd', hsame⟩
      · simp only [he, he']
        exact ⟨trivial, hdone⟩
      · simp only [hd, hd', ← hsame.services]
        rcases execute_same env salt hsame
          (.insertSalonService ⟨salonId, d.services.seq, sqliteReal price⟩) (k + 1)
          with ⟨e, he, he'⟩ | ⟨c, c', hc, hc', hsame'⟩
        · simp only [he, he']
          exact ⟨trivial, hsame⟩
        · simp only [hc, hc']
          exact ih (k + 2) hsame hsame'

theorem registerSalon_same (h : SameTables P H db db') (form : SalonForm) :
    SameReply P H (registerSalon P env db s form)
      (registerSalon (P.withHashing H) (env.resalt salt) db' s form) := by
  unfold registerSalon
  split
  · exact h.reply _ _ _ _
  split
  · exact h.reply _ _ _ _
  split
  · exact h.reply _ _ _ _
  have hw : SameWrite P H (.insertSalon (newSalon P env s form))
      (.insertSalon (newSalon (P.withHashing H) (env.resalt salt) s form)) :=
    .insertSalon ⟨rfl, sameKey_generate env.salt salt (stripped form.passKey)⟩
  rcases execute_same env salt h hw 0 with ⟨e, he, he'⟩ | ⟨d, d', hd, hd', hsame⟩
  · simp only [he, he']
    exact h.reply _ _ _ _
  · simp only [hd, hd', ← hsame.salons.seq]
    have hrest := insertServices_same env salt d.salons.seq 1 (validServices form) hsame hsame
    generalize insertServices env d.salons.seq 1 (validServices form) d d = x at hrest
    generalize insertServices (env.resalt salt) d.salons.seq 1 (validServices form) d' d' = y
      at hrest
    obtain ⟨c, e⟩ := x
    obtain ⟨c', e'⟩ := y
    obtain ⟨rfl, htables⟩ := hrest
    cases e' with
    | some e => exact htables.reply _ _ _ _
    | none => exact htables.reply _ _ _ _

theorem rateSalon_same (h : SameTables P H db db') (salonId : Nat) (rating : Option Text) :
    SameReply P H (rateSalon env db s salonId rating)
      (rateSalon (env.resalt salt) db' s salonId rating) := by
  unfold rateSalon
  simp only
  split
  · exact h.reply _ _ _ _
  rcases rel_cases (h.salons.find? salonId) with ⟨ha, hb⟩ | ⟨r, r', ha, hb, hr⟩
  · rw [ha, hb]
    exact h.reply _ _ _ _
  · obtain ⟨htotal, hcount, -⟩ := hr.eqs
    simp only [ha, hb, htotal, hcount]
    rcases execute_same env salt h (.setRating salonId _ _) 0
      with ⟨e, he, he'⟩ | ⟨d, d', hd, hd', hsame⟩
    · rw [he, he']
      exact h.reply _ _ _ _
    · rw [hd, hd']
      exact hsame.reply _ _ _ _

theorem wrongPasskey_same {r r' : Option Salon} (h : Option.Rel (SameSalon P H) r r')
    (enteredKey : Option Text) :
    wrongPasskey (P.withHashing H) r' enteredKey = wrongPasskey P r enteredKey := by
  cases h with
  | none => rfl
  | some hr =>
    cases enteredKey with
    | none => rfl
    | some key =>
      unfold wrongPasskey
      simp only
      rw [hr.2 key]
      rfl

theorem toggleVerify_same (h : SameTables P H db db') (salonId : Nat) (enteredKey : Option Text) :
    SameReply P H (toggleVerify P env db s salonId enteredKey)
      (toggleVerify (P.withHashing H) (env.resalt salt) db' s salonId enteredKey) := by
  unfold toggleVerify
  split
  · exact h.reply _ _ _ _
  rw [wrongPasskey_same (h.salons.find? salonId)]
  rcases rel_cases (h.salons.find? salonId) with ⟨ha, hb⟩ | ⟨r, r', ha, hb, hr⟩
  · rw [ha, hb]
    exact h.reply _ _ _ _
  · rw [ha, hb]
    cases wrongPasskey P (some r) enteredKey with
    | error e => exact h.reply _ _ _ _
    | ok wrong =>
      cases wrong with
      | true => exact h.reply _ _ _ _
      | false =>
        simp only [hr.eqs.2.2.1]
        rcases execute_same env salt h (.setStatus salonId _) 0
          with ⟨e, he, he'⟩ | ⟨d, d', hd, hd', hsame⟩
        · rw [he, he']
          exact h.reply _ _ _ _
        · rw [hd, hd']
          exact hsame.reply _ _ _ _

theorem workerTogglePage_same (h : SameTables P H db db') (salonId : Nat) :
    SameReply P H (workerTogglePage db s salonId) (workerTogglePage db' s salonId) := by
  unfold workerTogglePage
  split
  · exact h.reply _ _ _ _
  split
  · exact h.reply _ _ _ _
  rcases rel_cases (h.salons.find? salonId) with ⟨ha, hb⟩ | ⟨r, r', ha, hb, hr⟩
  · rw [ha, hb]
    exact h.reply _ _ _ _
  · simp only [ha, hb, hr.eqs.2.2.2]
    split
    · exact h.reply _ _ _ _
    · exact h.reply _ _ _ _

theorem verifyWorkerAccessPost_same (h : SameTables P H db db') (salonId : Nat)
    (enteredKey : Option Text) : SameReply P H (verifyWorkerAccessPost P db s salonId enteredKey)
      (verifyWorkerAccessPost (P.withHashing H) db' s salonId enteredKey) := by
  unfold verifyWorkerAccessPost
  rw [wrongPasskey_same (h.salons.find? salonId)]
  split
  · exact h.reply _ _ _ _
  split
  · exact h.reply _ _ _ _
  · exact h.reply _ _ _ _
  · exact h.reply _ _ _ _

theorem verifyWorkerPage_same (h : SameTables P H db db') (salonId : Nat)
    (enteredKey : Option Text) : SameReply P H (verifyWorkerPage P db s salonId enteredKey)
      (verifyWorkerPage (P.withHashing H) db' s salonId enteredKey) := by
  unfold verifyWorkerPage
  rw [wrongPasskey_same (h.salons.find? salonId)]
  split
  · exact h.reply _ _ _ _
  · exact h.reply _ _ _ _
  · exact h.reply _ _ _ _

theorem updateWorkerCount_same (h : SameTables P H db db') (salonId : Nat)
    (field : Option Text) : SameReply P H (updateWorkerCount env db s salonId field)
      (updateWorkerCount (env.resalt salt) db' s salonId field) := by
  unfold updateWorkerCount
  simp only
  split
  · exact h.reply _ _ _ _
  split
  · exact h.reply _ _ _ _
  split
  · exact h.reply _ _ _ _
  rcases execute_same env salt h (.setWorkerCount salonId _) 0
    with ⟨e, he, he'⟩ | ⟨d, d', hd, hd', hsame⟩
  · rw [he, he']
    exact h.reply _ _ _ _
  · rw [hd, hd']
    exact hsame.reply _ _ _ _

theorem listSalons_same (h : SameTables P H db db') (search : Option Text) :
    SameReply P H (listSalons P db s search) (listSalons (P.withHashing H) db' s search) := by
  have hrows : db'.salons.rows = [] ↔ db.salons.rows = [] := by
    rw [← List.isEmpty_iff, ← List.isEmpty_iff, h.salons.isEmpty]
  have hsigma : (P.withHashing H).finalSigma = P.finalSigma := rfl
  simp only [listSalons, showSalons, selectLike, hsigma, ne_eq, hrows]
  split_ifs
  · exact h.reply _ _ _ _
  · exact h.reply _ _ _ _
  · exact h.reply _ _ _ _

theorem recommend_same (h : SameTables P H db db') (lat lon category : Option Text) :
    SameReply P H (recommend db s lat lon category) (recommend db' s lat lon category) := by
  unfold recommend
  rw [← h.salons.isEmpty]
  split
  · exact h.reply _ _ _ _
  split
  · exact h.reply _ _ _ _
  split
  · exact h.reply _ _ _ _
  · exact h.reply _ _ _ _

theorem bookSlotForSalon_same (h : SameTables P H db db') (salonId : Nat)
    (form : Option BookForm) : SameReply P H (bookSlotForSalon env db s salonId form)
      (bookSlotForSalon (env.resalt salt) db' s salonId form) := by
  have hpaid : db'.paidSlotTimes salonId = db.paidSlotTimes salonId := by
    unfold Db.paidSlotTimes
    rw [h.slots]
  unfold bookSlotForSalon
  rw [hpaid]
  split
  · exact h.reply _ _ _ _
  rcases rel_cases (h.salons.find? salonId) with ⟨ha, hb⟩ | ⟨r, r', ha, hb, hr⟩
  · rw [ha, hb]
    exact h.reply _ _ _ _
  · rw [ha, hb]
    cases form with
    | none => exact h.reply _ _ _ _
    | some form =>
      simp only [hr.eqs.2.2.2, resalt_now]
      cases checkBooking env.now salonId r.workerCount (db.paidSlotTimes salonId) form with
      | ok booking => exact h.reply _ _ _ _
      | error refusal =>
        cases refusal with
        | flash message => exact h.reply _ _ _ _
        | raised e => exact h.reply _ _ _ _

theorem getBookedSlots_same (h : SameTables P H db db') (salonId : Nat) (slotDate : Text) :
    SameReply P H (getBookedSlots db s salonId slotDate)
      (getBookedSlots db' s salonId slotDate) := by
  unfold getBookedSlots Db.paidSlotTimes
  rw [← h.slots]
  rcases rel_cases (h.salons.find? salonId) with ⟨ha, hb⟩ | ⟨r, r', ha, hb, hr⟩
  · rw [ha, hb]
    exact h.reply _ _ _ _
  · simp only [ha, hb, hr.eqs.2.2.2]
    exact h.reply _ _ _ _

theorem payment_same (h : SameTables P H db db') :
    SameReply P H (payment env db s) (payment (env.resalt salt) db' s) := by
  unfold payment
  split
  · split
    · exact h.reply _ _ _ _
    · rename_i booking _
      simp only [resalt_createOrder]
      cases env.createOrder (booking.platformFee * 100) with
      | none => exact h.reply _ _ _ _
      | some id => exact h.reply _ _ _ _
  · exact h.reply _ _ _ _

theorem paymentSuccess_same (h : SameTables P H db db') (form : PaymentForm) :
    SameReply P H (paymentSuccess P env db s form)
      (paymentSuccess (P.withHashing H) (env.resalt salt) db' s form) := by
  unfold paymentSuccess
  split
  · exact h.reply _ _ _ _
  · simp only
    split
    · exact h.reply _ _ _ _
    change SameReply P H (if !P.verifyPaymentSignature _ _ _ then _ else _)
      (if !P.verifyPaymentSignature _ _ _ then _ else _)
    split
    · exact h.reply _ _ _ _
    split
    · exact h.reply _ _ _ _
    split
    · exact h.reply _ _ _ _
    rcases execute_same env salt h (.insertSlot _) 0 with ⟨e, he, he'⟩ | ⟨d, d', hd, hd', hsame⟩
    · rw [he, he']
      exact h.reply _ _ _ _
    · rw [hd, hd']
      exact hsame.reply _ _ _ _

theorem forgotPasswordMale_same (h : SameTables P H db db') (mobile : Option Text) :
    SameReply P H (forgotPasswordMale db s mobile) (forgotPasswordMale db' s mobile) := by
  unfold forgotPasswordMale
  cases mobile with
  | none => exact h.reply _ _ _ _
  | some m =>
    simp only [Option.bind_some]
    rcases rel_cases (h.findMobile m "male".toList) with ⟨ha, hb⟩ | ⟨u, u', ha, hb, -⟩
    · rw [ha, hb]
      exact h.reply _ _ _ _
    · rw [ha, hb]
      exact h.reply _ _ _ _

theorem forgotPasswordFemale_same (h : SameTables P H db db') (mobile : Option Text) :
    SameReply P H (forgotPasswordFemale db s mobile) (forgotPasswordFemale db' s mobile) := by
  unfold forgotPasswordFemale
  simp only
  split
  · exact h.reply _ _ _ _
  · rcases rel_cases (h.findMobile (stripped mobile) "female".toList) with
      ⟨ha, hb⟩ | ⟨u, u', ha, hb, -⟩
    · rw [ha, hb]
      exact h.reply _ _ _ _
    · rw [ha, hb]
      exact h.reply _ _ _ _

theorem adminDashboard_same (h : SameTables P H db db') :
    SameReply P H (adminDashboard db s) (adminDashboard db' s) := by
  unfold adminDashboard
  split
  · exact h.reply _ _ _ _
  · exact h.reply _ _ _ _

theorem databaseViews_same (h : SameTables P H db db') :
    SameReply P H (databaseViews db s) (databaseViews db' s) := by
  unfold databaseViews
  split
  · exact h.reply _ _ _ _
  · exact h.reply _ _ _ _

theorem verifyOtp_same (h : SameTables P H db db') (otp : Option Text) :
    SameReply P H (verifyOtp db s otp) (verifyOtp db' s otp) := by
  unfold verifyOtp
  split
  · exact h.reply _ _ _ _
  · exact h.reply _ _ _ _

theorem resetPasswordGet_same (h : SameTables P H db db') :
    SameReply P H (resetPasswordGet db s) (resetPasswordGet db' s) := by
  unfold resetPasswordGet
  split
  · exact h.reply _ _ _ _
  · exact h.reply _ _ _ _

/-- One request, served on both sides. -/
theorem handle_same (h : SameTables P H db db') (req : Request) :
    SameReply P H (handle P env db s req)
      (handle (P.withHashing H) (env.resalt salt) db' s req) := by
  cases req with
  | page template => exact h.reply _ _ _ _
  | uploadedFile filename => exact h.reply _ _ _ _
  | unrouted => exact h.reply _ _ _ _
  | loginPage form =>
    cases form with
    | none => exact h.reply _ _ _ _
    | some form => exact loginPage_same h form
  | logout => exact h.reply _ _ _ _
  | adminDashboard => exact adminDashboard_same h
  | adminLogout => exact h.reply _ _ _ _
  | databaseViews => exact databaseViews_same h
  | deleteUser id => exact deleteRow_same h (.deleteUser id)
  | deleteSalon id => exact deleteRow_same h (.deleteSalon id)
  | deleteService id => exact deleteRow_same h (.deleteService id)
  | deleteBooking id => exact deleteRow_same h (.deleteBooking id)
  | auth page action form => exact handleAuth_same h action page form
  | forgotPassword page mobile =>
    cases page with
    | male => exact forgotPasswordMale_same h mobile
    | female => exact forgotPasswordFemale_same h mobile
  | verifyOtp otp => exact verifyOtp_same h otp
  | resetPasswordGet => exact resetPasswordGet_same h
  | resetPassword password => exact resetPassword_same h password
  | registerSalon form => exact registerSalon_same h form
  | showSalons search => exact listSalons_same h search
  | recommend lat lon category => exact recommend_same h lat lon category
  | rateSalon salonId rating => exact rateSalon_same h salonId rating
  | toggleVerify salonId passKey => exact toggleVerify_same h salonId passKey
  | workerTogglePage salonId => exact workerTogglePage_same h salonId
  | verifyWorkerPageGet salonId => exact h.reply _ _ _ _
  | verifyWorkerAccessPost salonId passKey => exact verifyWorkerAccessPost_same h salonId passKey
  | verifyWorkerPageForm salonId => exact h.reply _ _ _ _
  | verifyWorkerPage salonId passKey => exact verifyWorkerPage_same h salonId passKey
  | updateWorkerCount salonId workerCount => exact updateWorkerCount_same h salonId workerCount
  | bookSlotForSalon salonId form => exact bookSlotForSalon_same h salonId form
  | getBookedSlots salonId slotDate => exact getBookedSlots_same h salonId slotDate
  | payment salonId => exact payment_same h
  | paymentSuccess form => exact paymentSuccess_same h form

end Handlers

section Runs
variable (P : Platform) (H : Hashing)

/-- The same request with the same reply; only the salt may be another. -/
structure SameEvent (e e' : Event) : Prop where
  browser : e'.browser = e.browser
  cookie : e'.cookie = e.cookie
  request : e'.request = e.request
  env : e'.env = e.env.resalt e'.env.salt
  before : SameTables P H e.before e'.before
  reply : SameReply P H e.outcome e'.outcome

structure SameSys (σ σ' : Sys) : Prop where
  db : SameTables P H σ.db σ'.db
  jar : σ'.jar = σ.jar

variable {P : Platform} {H : Hashing} {σ σ' τ : Sys} {e : Event} {es : List Event}

theorem sameSys_init : SameSys P H Sys.init Sys.init where
  db := ⟨related_empty _, related_empty _, rfl, rfl, rfl⟩
  jar := rfl

theorem step_same (hstep : Step P σ e τ) (hsame : SameSys P H σ σ') (salt : Nat) :
    ∃ e' τ', Step (P.withHashing H) σ' e' τ' ∧ SameEvent P H e e' ∧ e'.env.salt = salt ∧
      SameSys P H τ τ' := by
  let e' : Event :=
    ⟨e.browser, e.cookie, e.env.resalt salt, e.request, σ'.db,
      handle (P.withHashing H) (e.env.resalt salt) σ'.db e.cookie e.request⟩
  have htables : SameTables P H e.before σ'.db := by
    rw [hstep.before]
    exact hsame.db
  have hreply : SameReply P H e.outcome e'.outcome := by
    rw [hstep.served]
    exact handle_same htables e.request
  have hpresented : e'.cookie = {} ∨ e'.cookie ∈ σ'.jar e'.browser := by
    rw [hsame.jar]
    exact hstep.presented
  refine ⟨e', σ'.after e', ⟨hpresented, rfl, rfl, rfl, rfl⟩,
    ⟨rfl, rfl, rfl, rfl, htables, hreply⟩, rfl, ?_⟩
  constructor
  · rw [hstep.db]
    exact hreply.db
  · change Function.update σ'.jar e.browser (e'.outcome.session :: σ'.jar e.browser) = τ.jar
    rw [hreply.session, hsame.jar, hstep.jar]

/-- The app does the same, whichever way keys are stored and whichever salts are drawn. -/
theorem keys_hidden (h : Run (Step P) σ es τ) (hsame : SameSys P H σ σ') (salts : Nat → Nat) :
    ∃ es' τ', Run (Step (P.withHashing H)) σ' es' τ' ∧ List.Forall₂ (SameEvent P H) es es' ∧
      es'.map (fun e => e.env.salt) = (List.range es.length).map salts ∧ SameSys P H τ τ' := by
  induction h with
  | nil => exact ⟨[], σ', .nil, .nil, rfl, hsame⟩
  | @snoc es t u e _ hstep ih =>
    obtain ⟨es', t', hrun, hevents, hsalts, ht⟩ := ih
    obtain ⟨e', u', hstep', hevent, hsalt, hu⟩ := step_same hstep ht (salts es.length)
    refine ⟨es' ++ [e'], u', .snoc hrun hstep', List.rel_append hevents (.cons hevent .nil), ?_, hu⟩
    rw [List.map_append, hsalts, List.length_append, List.length_singleton, List.range_succ,
      List.map_append, List.map_singleton, List.map_singleton, hsalt]

end Runs

/-- The salt in front of the key. -/
def Hashing.salted : Hashing where
  generate salt p := Nat.toDigits 10 salt ++ '$' :: p
  check hash q := (hash.dropWhile fun c => c != '$').drop 1 == q
  check_generate salt p q := by
    have hsolid : ∀ c ∈ Nat.toDigits 10 salt, (c != '$') = true := by
      intro c hc
      have hdigit := Nat.isDigit_of_mem_toDigits (by decide) (by decide) hc
      exact bne_iff_ne.mpr fun h => absurd (h ▸ hdigit) (by decide)
    rw [beq_iff_eq, List.dropWhile_append_of_pos hsolid]
    exact eq_comm

theorem keys_hidden_opening : ∃ es' τ',
    Run (Step ((plain.withHashing .salted).withHashing .ideal)) Sys.init es' τ' ∧
      List.Forall₂ (SameEvent (plain.withHashing .salted) .ideal)
        (play (plain.withHashing .salted) Sys.init (opening "1")).1 es' ∧
      es'.map (fun e => e.env.salt) =
        (List.range (play (plain.withHashing .salted) Sys.init (opening "1")).1.length).map id ∧
      SameSys (plain.withHashing .salted) .ideal
        (play (plain.withHashing .salted) Sys.init (opening "1")).2 τ' :=
  keys_hidden (play_steps _ _ _) sameSys_init id

end Gloora
