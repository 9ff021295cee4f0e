import Gloora.Server

/-!
# What one request can do

`handle_effect` says once, for every request, which statements it may execute and how it
may change the part of the session that identifies the user or holds the pending booking.
The invariants of whole runs are derived from it.
-/

namespace Gloora
set_option autoImplicit false

open PyText Runs

inductive Writes : Db → List Write → Db → Prop where
  | nil (db : Db) : Writes db [] db
  | snoc {db db' db'' : Db} {ws : List Write} {w : Write} :
      Writes db ws db' → db'.exec w = some db'' → Writes db (ws ++ [w]) db''

theorem Writes.single {db db' : Db} {w : Write} (h : db.exec w = some db') : Writes db [w] db' := by
  have hws : Writes db ([] ++ [w]) db' := .snoc (.nil db) h
  exact hws

/-- An invariant kept by each statement of a sequence is kept by the sequence. -/
theorem Writes.preserved {db db' : Db} {ws : List Write} (h : Writes db ws db') (I : Db → Prop)
    (start : I db) (keep : ∀ a b w, w ∈ ws → I a → a.exec w = some b → I b) : I db' := by
  induction h with
  | nil => exact start
  | snoc _ hexec ih =>
    refine keep _ _ _ (by simp) (ih ?_) hexec
    exact fun a b w hw => keep a b w (List.mem_append_left _ hw)

def Request.issues (s : Session) : Request → Write → Prop
  | .deleteUser id, w => w = .deleteUser id
  | .deleteSalon id, w => w = .deleteSalon id
  | .deleteService id, w => w = .deleteService id
  | .deleteBooking id, w => w = .deleteBooking id
  | .auth _ _ _, w => ∃ u, w = .insertUser u
  | .resetPassword _, w => ∃ mobile hash, w = .setPassword mobile hash
  | .registerSalon _, w => (∃ r, w = .insertSalon r) ∨ (∃ name, w = .insertService name) ∨
      ∃ r, w = .insertSalonService r
  | .rateSalon id _, w => ∃ total count, w = .setRating id total count
  | .toggleVerify id _, w => ∃ status, w = .setStatus id status
  | .updateWorkerCount id _, w => ∃ count, w = .setWorkerCount id count
  | .paymentSuccess _, w => ∃ userId username booking, s.userId = some userId ∧
      s.username = some username ∧ s.pendingBooking = some booking ∧
      w = .insertSlot (paidRow userId username booking)
  | _, _ => False

/-- The keys of the session that only logins, bookings and payments write. -/
structure SameCore (s s' : Session) : Prop where
  admin : s'.admin = s.admin
  username : s'.username = s.username
  email : s'.email = s.email
  userId : s'.userId = s.userId
  pendingBooking : s'.pendingBooking = s.pendingBooking

theorem SameCore.refl (s : Session) : SameCore s s := ⟨rfl, rfl, rfl, rfl, rfl⟩

theorem SameCore.trans {s t u : Session} (hst : SameCore s t) (htu : SameCore t u) :
    SameCore s u where
  admin := htu.admin.trans hst.admin
  username := htu.username.trans hst.username
  email := htu.email.trans hst.email
  userId := htu.userId.trans hst.userId
  pendingBooking := htu.pendingBooking.trans hst.pendingBooking

/-- POST /book-slot passes every check and stores `booking`. -/
structure Books (env : Env) (db : Db) (s : Session) (salonId : Nat) (form : BookForm)
    (salon : Salon) (booking : PendingBooking) : Prop where
  username : s.username.isSome
  userId : s.userId.isSome
  row : db.salons.find? salonId = some salon
  checked : checkBooking env.now salonId salon.workerCount (db.paidSlotTimes salonId) form =
    .ok booking

/-- POST /payment-success inserts the row of the pending booking. -/
structure Pays (P : Platform) (env : Env) (db : Db) (s : Session) (form : PaymentForm)
    (userId : Nat) (username : Text) (booking : PendingBooking) (db' : Db) : Prop where
  user : s.userId = some userId
  name : s.username = some username
  pending : s.pendingBooking = some booking
  paymentId : form.paymentId.getD [] ≠ []
  orderId : form.orderId.getD [] ≠ []
  signature : form.signature.getD [] ≠ []
  verified : P.verifyPaymentSignature (form.orderId.getD []) (form.paymentId.getD [])
    (form.signature.getD []) = true
  executed : env.execute 0 db (.insertSlot (paidRow userId username booking)) = .ok db'

def Request.asksLogin : Request → Bool
  | .loginPage (some _) | .auth _ _ _ => true
  | _ => false

/-- How a request may change the session. -/
inductive SessionChange (P : Platform) (env : Env) (db : Db) (s : Session) (req : Request)
    (o : Outcome) : Prop where
  | kept (h : SameCore s o.session)
  | cleared (h : o.session = {}) (hreq : req = .logout ∨ req = .adminLogout)
  | adminLogin (h : o.session = adminSession) (hreq : req.asksLogin = true)
      (hbody : o.body = .redirect "admin_dashboard".toList none)
  | userLogin (id : Nat) (u : User) (h : o.session = userSession id u)
      (hrow : (id, u) ∈ db.users.rows) (hreq : req.asksLogin = true)
      (hbody : o.body = .redirect "help_page".toList none)
  | booked (salonId : Nat) (form : BookForm) (salon : Salon) (booking : PendingBooking)
      (hreq : req = .bookSlotForSalon salonId (some form))
      (hbooks : Books env db s salonId form salon booking)
      (hdb : o.db = db)
      (h : o.session = { s with pendingBooking := some booking })
      (hbody : o.body = .redirect "payment".toList (some salonId))
  | paid (form : PaymentForm) (userId : Nat) (username : Text) (booking : PendingBooking)
      (hreq : req = .paymentSuccess form)
      (hpays : Pays P env db s form userId username booking o.db)
      (h : o.session = { s with pendingBooking := none })

structure Effect (P : Platform) (env : Env) (db : Db) (s : Session) (req : Request)
    (o : Outcome) : Prop where
  writes : ∃ ws, Writes db ws o.db ∧ ∀ w ∈ ws, req.issues s w
  session : SessionChange P env db s req o

section Handlers
variable {P : Platform} {env : Env} {db : Db} {s : Session} {req : Request} {o : Outcome}

theorem effect_of_db (hdb : o.db = db) (hs : SessionChange P env db s req o) :
    Effect P env db s req o :=
  ⟨⟨[], hdb ▸ .nil db, by simp⟩, hs⟩

theorem effect_quiet (hdb : o.db = db) (hs : o.session = s) : Effect P env db s req o :=
  effect_of_db hdb (.kept (hs ▸ .refl s))

theorem effect_write {k : Nat} {w : Write} (hexec : env.execute k db w = .ok o.db)
    (hissues : req.issues s w) (hs : SessionChange P env db s req o) : Effect P env db s req o := by
  refine ⟨⟨[w], ?_, by simpa using hissues⟩, hs⟩
  exact .single (Env.execute_ok.mp hexec).2

theorem loginPage_effect (form : AuthForm) :
    Effect P env db s (.loginPage (some form)) (loginPage P db s form) := by
  unfold loginPage
  simp only
  split
  · exact effect_of_db rfl (.adminLogin rfl rfl rfl)
  · split
    · rename_i id u hfind
      split
      · have hrow := (Keyed.Table.first?_mem hfind).1
        exact effect_of_db rfl (.userLogin id u rfl hrow rfl rfl)
      · exact effect_quiet rfl rfl
    · exact effect_quiet rfl rfl

theorem deleteRow_effect (w : Write) (h : req.issues s w) :
    Effect P env db s req (deleteRow env db s w) := by
  unfold deleteRow
  split
  · rename_i db' hexec
    exact effect_write hexec h (.kept (.refl s))
  · exact effect_quiet rfl rfl

theorem handleAuth_effect (page : GenderPage) (action : Option Text) (form : AuthForm) :
    Effect P env db s (.auth page action form) (handleAuth P env db s action page form) := by
  unfold handleAuth
  simp only
  split
  · exact effect_quiet rfl rfl
  split
  · exact effect_quiet rfl rfl
  split
  · split
    · rename_i db' hexec
      exact effect_write hexec ⟨_, rfl⟩ (.kept (.refl s))
    · split <;> exact effect_quiet rfl rfl
  split
  · split
    · exact effect_of_db rfl (.adminLogin rfl rfl rfl)
    · split
      · rename_i id u hfind
        split
        · have hrow := (Keyed.Table.first?_mem hfind).1
          exact effect_of_db rfl (.userLogin id u rfl hrow rfl rfl)
        · exact effect_quiet rfl rfl
      · exact effect_quiet rfl rfl
  · exact effect_quiet rfl rfl

theorem resetPassword_effect (password : Option Text) :
    Effect P env db s (.resetPassword password) (resetPassword P env db s password) := by
  unfold resetPassword
  split
  · exact effect_quiet rfl rfl
  split
  · exact effect_quiet rfl rfl
  · exact effect_quiet rfl rfl
  split
  · exact effect_quiet rfl rfl
  split
  · exact effect_quiet rfl rfl
  · rename_i db' hexec
    exact effect_write hexec ⟨_, _, rfl⟩ (.kept ⟨rfl, rfl, rfl, rfl, rfl⟩)

/-- Both the committed state and the open transaction of the service loop are reached by
statements of the registration, so an exception may fall back to either. -/
theorem insertServices_writes (env : Env) {form : SalonForm} {start : Db} (salonId : Nat)
    (k : Nat) (services : List (Text × Binary64.Double)) (done cur : Db)
    (hdone : ∃ ws, Writes start ws done ∧ ∀ w ∈ ws, (Request.registerSalon form).issues s w)
    (hcur : ∃ ws, Writes start ws cur ∧ ∀ w ∈ ws, (Request.registerSalon form).issues s w) :
    ∃ ws, Writes start ws (insertServices env salonId k services done cur).1 ∧
      ∀ w ∈ ws, (Request.registerSalon form).issues s w := by
  have extend : ∀ {j : Nat} {a b : Db} {w : Write},
      (∃ ws, Writes start ws a ∧ ∀ v ∈ ws, (Request.registerSalon form).issues s v) →
      env.execute j a w = .ok b → (Request.registerSalon form).issues s w →
      ∃ ws, Writes start ws b ∧ ∀ v ∈ ws, (Request.registerSalon form).issues s v := by
    intro j a b w ha hexec hw
    obtain ⟨ws, hws, hissues⟩ := ha
    refine ⟨ws ++ [w], .snoc hws (Env.execute_ok.mp hexec).2, ?_⟩
    intro v hv
    rcases List.mem_append.mp hv with hv | hv
    · exact hissues v hv
    · exact List.mem_singleton.mp hv ▸ hw
  induction services generalizing k done cur with
  | nil =>
    unfold insertServices
    split
    · exact hcur
    · exact hdone
  | cons service rest ih =>
    obtain ⟨name, price⟩ := service
    unfold insertServices
    split
    · split
      · exact hdone
      · rename_i cur' hexec
        exact ih _ _ _ hdone (extend hcur hexec (.inr (.inr ⟨_, rfl⟩)))
    · split
      · exact hdone
      · rename_i cur' hexec
        have hcur' := extend hcur hexec (.inr (.inl ⟨_, rfl⟩))
        split
        · exact hcur'
        · rename_i cur'' hexec'
          exact ih _ _ _ hcur' (extend hcur' hexec' (.inr (.inr ⟨_, rfl⟩)))

theorem registerSalon_effect (form : SalonForm) :
    Effect P env db s (.registerSalon form) (registerSalon P env db s form) := by
  unfold registerSalon
  split
  · exact effect_quiet rfl rfl
  split
  · exact effect_quiet rfl rfl
  split
  · exact effect_quiet rfl rfl
  split
  · exact effect_quiet rfl rfl
  · rename_i db' hexec
    have hstart : ∃ ws, Writes db ws db' ∧ ∀ w ∈ ws, (Request.registerSalon form).issues s w :=
      ⟨[_], .single (Env.execute_ok.mp hexec).2,
        fun w hw => .inl ⟨_, List.mem_singleton.mp hw⟩⟩
    have hloop := insertServices_writes env db'.salons.seq 1 (validServices form) db' db'
      hstart hstart
    split
    · rename_i db'' e heq
      rw [heq] at hloop
      exact ⟨hloop, .kept (.refl s)⟩
    · rename_i db'' heq
      rw [heq] at hloop
      exact ⟨hloop, .kept (.refl s)⟩

theorem rateSalon_effect (salonId : Nat) (rating : Option Text) :
    Effect P env db s (.rateSalon salonId rating) (rateSalon env db s salonId rating) := by
  unfold rateSalon
  simp only
  split
  · exact effect_quiet rfl rfl
  split
  · exact effect_quiet rfl rfl
  split
  · exact effect_quiet rfl rfl
  · rename_i db' hexec
    exact effect_write hexec ⟨_, _, rfl⟩ (.kept (.refl s))

theorem toggleVerify_effect (salonId : Nat) (passKey : Option Text) :
    Effect P env db s (.toggleVerify salonId passKey) (toggleVerify P env db s salonId passKey) := by
  unfold toggleVerify
  split
  · exact effect_quiet rfl rfl
  split
  · exact effect_quiet rfl rfl
  · simp only
    split
    · exact effect_of_db rfl (.kept ⟨rfl, rfl, rfl, rfl, rfl⟩)
    · rename_i db' hexec
      exact effect_write hexec ⟨_, rfl⟩ (.kept ⟨rfl, rfl, rfl, rfl, rfl⟩)
  · exact effect_quiet rfl rfl

theorem workerTogglePage_effect (salonId : Nat) :
    Effect P env db s (.workerTogglePage salonId) (workerTogglePage db s salonId) := by
  unfold workerTogglePage
  split
  · exact effect_quiet rfl rfl
  split
  · exact effect_quiet rfl rfl
  split
  · exact effect_quiet rfl rfl
  · split <;> exact effect_quiet rfl rfl

theorem verifyWorkerAccessPost_effect (salonId : Nat) (passKey : Option Text) :
    Effect P env db s (.verifyWorkerAccessPost salonId passKey)
      (verifyWorkerAccessPost P db s salonId passKey) := by
  unfold verifyWorkerAccessPost
  split
  · exact effect_quiet rfl rfl
  split
  · exact effect_quiet rfl rfl
  · exact effect_quiet rfl rfl
  · exact effect_of_db rfl (.kept ⟨rfl, rfl, rfl, rfl, rfl⟩)

theorem verifyWorkerPage_effect (salonId : Nat) (passKey : Option Text) :
    Effect P env db s (.verifyWorkerPage salonId passKey)
      (verifyWorkerPage P db s salonId passKey) := by
  unfold verifyWorkerPage
  split
  · exact effect_quiet rfl rfl
  · exact effect_quiet rfl rfl
  · exact effect_of_db rfl (.kept ⟨rfl, rfl, rfl, rfl, rfl⟩)

theorem updateWorkerCount_effect (salonId : Nat) (count : Option Text) :
    Effect P env db s (.updateWorkerCount salonId count)
      (updateWorkerCount env db s salonId count) := by
  unfold updateWorkerCount
  simp only
  split
  · exact effect_quiet rfl rfl
  split
  · exact effect_quiet rfl rfl
  split
  · exact effect_quiet rfl rfl
  split
  · exact effect_quiet rfl rfl
  · rename_i db' hexec
    exact effect_write hexec ⟨_, rfl⟩ (.kept (.refl s))

/-- Only a POST that passes every check answers with a redirect to the payment page. -/
theorem bookSlotForSalon_cases (env : Env) (db : Db) (s : Session) (salonId : Nat) (form : BookForm) :
    (bookSlotForSalon env db s salonId (some form)).db = db ∧
    ((∃ salon booking, Books env db s salonId form salon booking ∧
        (bookSlotForSalon env db s salonId (some form)).session =
          { s with pendingBooking := some booking } ∧
        (bookSlotForSalon env db s salonId (some form)).body =
          .redirect "payment".toList (some salonId)) ∨
      ((bookSlotForSalon env db s salonId (some form)).session = s ∧
        (bookSlotForSalon env db s salonId (some form)).body ≠
          .redirect "payment".toList (some salonId))) := by
  have elsewhere : ∀ e m c, (redirectTo db s e m c).body ≠ .redirect "payment".toList (some salonId) :=
    by simp [redirectTo]
  unfold bookSlotForSalon
  split
  · exact ⟨rfl, .inr ⟨rfl, elsewhere _ _ _⟩⟩
  rename_i hlogin
  have hlogin' : s.username.isSome ∧ s.userId.isSome := by
    simpa [Option.isSome_iff_ne_none] using hlogin
  split
  · exact ⟨rfl, .inr ⟨rfl, elsewhere _ _ _⟩⟩
  rename_i salon hsalon
  simp only
  split
  · rename_i booking hchecked
    exact ⟨rfl, .inl ⟨salon, booking, ⟨hlogin'.1, hlogin'.2, hsalon, hchecked⟩, rfl, rfl⟩⟩
  · refine ⟨rfl, .inr ⟨rfl, fun h => ?_⟩⟩
    have hendpoint : "book_slot_for_salon".toList = "payment".toList := (Body.redirect.inj h).1
    exact absurd hendpoint (by decide)
  · refine ⟨rfl, .inr ⟨rfl, fun h => ?_⟩⟩
    cases h

theorem bookSlotForSalon_effect (salonId : Nat) (form : Option BookForm) :
    Effect P env db s (.bookSlotForSalon salonId form) (bookSlotForSalon env db s salonId form) := by
  cases form with
  | none =>
    unfold bookSlotForSalon
    split
    · exact effect_quiet rfl rfl
    split <;> exact effect_quiet rfl rfl
  | some form =>
    obtain ⟨hdb, ⟨salon, booking, hbooks, hsession, hbody⟩ | ⟨hsession, -⟩⟩ :=
      bookSlotForSalon_cases env db s salonId form
    · exact effect_of_db hdb (.booked salonId form salon booking rfl hbooks hdb hsession hbody)
    · exact effect_quiet hdb hsession

theorem paymentSuccess_cases (P : Platform) (env : Env) (db : Db) (s : Session)
    (form : PaymentForm) :
    (∃ userId username booking,
        Pays P env db s form userId username booking (paymentSuccess P env db s form).db ∧
        (paymentSuccess P env db s form).session = { s with pendingBooking := none }) ∨
      ((paymentSuccess P env db s form).db = db ∧ (paymentSuccess P env db s form).session = s) := by
  unfold paymentSuccess
  split
  · exact .inr ⟨rfl, rfl⟩
  rename_i userId huserId
  simp only
  split
  · exact .inr ⟨rfl, rfl⟩
  rename_i hfields
  split
  · exact .inr ⟨rfl, rfl⟩
  rename_i hverified
  split
  · exact .inr ⟨rfl, rfl⟩
  rename_i booking hbooking
  split
  · exact .inr ⟨rfl, rfl⟩
  rename_i username husername
  split
  · exact .inr ⟨rfl, rfl⟩
  · rename_i db' hexec
    simp only [Bool.or_eq_true, List.isEmpty_iff, not_or] at hfields
    exact .inl ⟨userId, username, booking, ⟨huserId, husername, hbooking, hfields.1.1, hfields.1.2,
      hfields.2, by simpa using hverified, hexec⟩, rfl⟩

theorem paymentSuccess_effect (form : PaymentForm) :
    Effect P env db s (.paymentSuccess form) (paymentSuccess P env db s form) := by
  rcases paymentSuccess_cases P env db s form with
    ⟨userId, username, booking, hpays, hsession⟩ | ⟨hdb, hsession⟩
  · exact effect_write hpays.executed ⟨userId, username, booking, hpays.user, hpays.name,
      hpays.pending, rfl⟩ (.paid form userId username booking rfl hpays hsession)
  · exact effect_quiet hdb hsession

theorem getBookedSlots_effect (salonId : Nat) (slotDate : Text) :
    Effect P env db s (.getBookedSlots salonId slotDate) (getBookedSlots db s salonId slotDate) := by
  unfold getBookedSlots
  split <;> exact effect_quiet rfl rfl

theorem payment_effect (salonId : Nat) : Effect P env db s (.payment salonId) (payment env db s) := by
  unfold payment
  split
  · split
    · exact effect_quiet rfl rfl
    · simp only
      split <;> exact effect_quiet rfl rfl
  · exact effect_quiet rfl rfl

theorem forgotPassword_effect (page : GenderPage) (mobile : Option Text) :
    Effect P env db s (.forgotPassword page mobile)
      (handle P env db s (.forgotPassword page mobile)) := by
  cases page
  · change Effect P env db s _ (forgotPasswordMale db s mobile)
    unfold forgotPasswordMale
    split <;> exact effect_quiet rfl rfl
  · change Effect P env db s _ (forgotPasswordFemale db s mobile)
    unfold forgotPasswordFemale
    simp only
    split
    · exact effect_quiet rfl rfl
    · split <;> exact effect_quiet rfl rfl

theorem listSalons_effect (search : Option Text) :
    Effect P env db s (.showSalons search) (listSalons P db s search) := by
  unfold listSalons
  split
  · exact effect_quiet rfl rfl
  · exact effect_quiet rfl rfl

theorem recommend_effect (lat lon category : Option Text) :
    Effect P env db s (.recommend lat lon category) (recommend db s lat lon category) := by
  unfold recommend
  split
  · exact effect_quiet rfl rfl
  split
  · exact effect_quiet rfl rfl
  split <;> exact effect_quiet rfl rfl

end Handlers

theorem handle_effect (P : Platform) (env : Env) (db : Db) (s : Session) (req : Request) :
    Effect P env db s req (handle P env db s req) := by
  cases req with
  | page template => exact effect_quiet rfl rfl
  | uploadedFile filename => exact effect_quiet rfl rfl
  | unrouted => exact effect_quiet rfl rfl
  | loginPage form =>
    cases form with
    | none => exact effect_quiet rfl rfl
    | some form => exact loginPage_effect form
  | logout => exact effect_of_db rfl (.cleared rfl (.inl rfl))
  | adminDashboard =>
    change Effect P env db s _ (adminDashboard db s)
    unfold adminDashboard
    split <;> exact effect_quiet rfl rfl
  | adminLogout => exact effect_of_db rfl (.cleared rfl (.inr rfl))
  | databaseViews =>
    change Effect P env db s _ (databaseViews db s)
    unfold databaseViews
    split <;> exact effect_quiet rfl rfl
  | deleteUser id => exact deleteRow_effect (.deleteUser id) rfl
  | deleteSalon id => exact deleteRow_effect (.deleteSalon id) rfl
  | deleteService id => exact deleteRow_effect (.deleteService id) rfl
  | deleteBooking id => exact deleteRow_effect (.deleteBooking id) rfl
  | auth page action form => exact handleAuth_effect page action form
  | forgotPassword page mobile => exact forgotPassword_effect page mobile
  | verifyOtp otp =>
    change Effect P env db s _ (verifyOtp db s otp)
    unfold verifyOtp
    split <;> exact effect_quiet rfl rfl
  | resetPasswordGet =>
    change Effect P env db s _ (resetPasswordGet db s)
    unfold resetPasswordGet
    split <;> exact effect_quiet rfl rfl
  | resetPassword password => exact resetPassword_effect password
  | registerSalon form => exact registerSalon_effect form
  | showSalons search => exact listSalons_effect search
  | recommend lat lon category => exact recommend_effect lat lon category
  | rateSalon salonId rating => exact rateSalon_effect salonId rating
  | toggleVerify salonId passKey => exact toggleVerify_effect salonId passKey
  | workerTogglePage salonId => exact workerTogglePage_effect salonId
  | verifyWorkerPageGet salonId => exact effect_quiet rfl rfl
  | verifyWorkerAccessPost salonId passKey => exact verifyWorkerAccessPost_effect salonId passKey
  | verifyWorkerPageForm salonId => exact effect_quiet rfl rfl
  | verifyWorkerPage salonId passKey => exact verifyWorkerPage_effect salonId passKey
  | updateWorkerCount salonId count => exact updateWorkerCount_effect salonId count
  | bookSlotForSalon salonId form => exact bookSlotForSalon_effect salonId form
  | getBookedSlots salonId slotDate => exact getBookedSlots_effect salonId slotDate
  | payment salonId => exact payment_effect salonId
  | paymentSuccess form => exact paymentSuccess_effect form

end Gloora
