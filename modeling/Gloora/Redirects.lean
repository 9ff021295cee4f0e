import Gloora.Passkeys

/-!
# Where redirects lead

`url_for` turns an endpoint into a URL, and a browser asks for it at once, with the cookie it
has just been given. Whatever other requests do in the meantime, such a chain ends after
three redirects at most. On its way it changes no table, and it fails only at the two
routes whose templates are missing.
-/

namespace Gloora
set_option autoImplicit false

open PyText Runs Keyed

/-- The routes without an argument that a handler redirects to. A browser drops the `?login=1`
that some of them carry: the handler of the page reads it for its template only. -/
def plainRoutes : List (Text × Request) :=
  [("male".toList, .page "male_page.html"),
   ("female".toList, .page "female_page.html"),
   ("gender".toList, .page "gender.html"),
   ("help_page".toList, .page "help.html"),
   ("forgot_password_male".toList, .page "forgot_password_male.html"),
   ("forgot_password_female".toList, .page "forgot_password_female.html"),
   ("verify_otp".toList, .page "verify_otp.html"),
   ("reset_password".toList, .resetPasswordGet),
   ("show_salons".toList, .showSalons none),
   ("login_page".toList, .loginPage none),
   ("admin_dashboard".toList, .adminDashboard)]

/-- The routes with the id of a salon. -/
def salonRoutes (salonId : Nat) : List (Text × Request) :=
  [("worker_toggle_page".toList, .workerTogglePage salonId),
   ("verify_worker_page_get".toList, .verifyWorkerPageGet salonId),
   ("verify_worker_page".toList, .verifyWorkerPageForm salonId),
   ("book_slot_for_salon".toList, .bookSlotForSalon salonId none),
   ("payment".toList, .payment salonId)]

/-- The request for `url_for(endpoint, salon_id=…)`; `none` where `url_for` raises BuildError. -/
def urlFor (endpoint : Text) : Option Nat → Option Request
  | none => plainRoutes.lookup endpoint
  | some salonId => (salonRoutes salonId).lookup endpoint

/-- The request that the reply sends the browser to. -/
def Event.target (e : Event) : Option Request :=
  match e.outcome.body with
  | .redirect endpoint salonId => urlFor endpoint salonId
  | _ => none

/-- The browser of `e` follows its redirect, with the cookie it was given. -/
def Event.LeadsTo (e e' : Event) : Prop :=
  e'.browser = e.browser ∧ e'.cookie = e.outcome.session ∧ e.target = some e'.request

instance (e e' : Event) : Decidable (e.LeadsTo e') := inferInstanceAs (Decidable (_ ∧ _ ∧ _))

/-- How many redirects a request can start. -/
def Request.hops : Request → Nat
  | .page _ | .uploadedFile _ | .unrouted | .showSalons _ | .getBookedSlots _ _ => 0
  | .verifyWorkerPageGet _ | .verifyWorkerPageForm _ => 0
  | .loginPage none | .adminDashboard | .resetPasswordGet => 1
  | .workerTogglePage _ | .bookSlotForSalon _ none | .payment _ => 2
  | _ => 3

/-- What a browser is shown at the end of its redirects. -/
def Body.Lands : Body → Prop
  | .page _ | .paymentPage _ | .redirect _ _ => True
  | .error exception => exception = "TemplateNotFound".toList
  | .bookedSlots _ _ | .file | .unrouted => False

/-- A reply that redirects to a route from which fewer than `n` redirects remain. -/
def Body.LeadsBelow (n : Nat) (body : Body) : Prop :=
  ∀ endpoint salonId, body = .redirect endpoint salonId →
    ∃ req, urlFor endpoint salonId = some req ∧ req.hops < n

section Handlers
variable {P : Platform} {env : Env} {db : Db} {s : Session} {n : Nat}

theorem leadsBelow_redirect {endpoint : Text} {salonId : Option Nat} {req : Request}
    (h : urlFor endpoint salonId = some req) (hn : req.hops < n) :
    (Body.redirect endpoint salonId).LeadsBelow n := by
  intro e id heq
  cases heq
  exact ⟨req, h, hn⟩

theorem leadsBelow_other {body : Body} (h : ∀ endpoint salonId, body ≠ .redirect endpoint salonId) :
    body.LeadsBelow n := fun endpoint salonId heq => absurd heq (h endpoint salonId)

theorem deleteRow_leads (w : Write) : (deleteRow env db s w).body.LeadsBelow 3 := by
  unfold deleteRow
  split
  · exact leadsBelow_redirect rfl (by decide)
  · exact leadsBelow_other nofun

theorem loginPage_leads (form : AuthForm) : (loginPage P db s form).body.LeadsBelow 3 := by
  unfold loginPage
  extract_lets
  split_ifs
  · exact leadsBelow_redirect rfl (by decide)
  · split
    · split
      · exact leadsBelow_redirect rfl (by decide)
      · exact leadsBelow_redirect rfl (by decide)
    · exact leadsBelow_redirect rfl (by decide)

theorem adminDashboard_leads : (adminDashboard db s).body.LeadsBelow 1 := by
  unfold adminDashboard
  split
  · exact leadsBelow_other nofun
  · exact leadsBelow_redirect rfl (by decide)

theorem databaseViews_leads : (databaseViews db s).body.LeadsBelow 3 := by
  unfold databaseViews
  split
  · exact leadsBelow_other nofun
  · exact leadsBelow_redirect rfl (by decide)

theorem handleAuth_leads (action : Option Text) (page : GenderPage) (form : AuthForm) :
    (handleAuth P env db s action page form).body.LeadsBelow 3 := by
  have hpage : (Body.redirect page.endpoint.toList none).LeadsBelow 3 := by
    cases page with
    | male => exact leadsBelow_redirect rfl (by decide)
    | female => exact leadsBelow_redirect rfl (by decide)
  unfold handleAuth
  extract_lets
  split_ifs
  · exact hpage
  · exact hpage
  · split
    · exact hpage
    · split
      · exact hpage
      · exact leadsBelow_other nofun
  · exact leadsBelow_redirect rfl (by decide)
  · split
    · split
      · exact leadsBelow_redirect rfl (by decide)
      · exact hpage
    · exact hpage
  · exact hpage

theorem forgotPasswordMale_leads (mobile : Option Text) :
    (forgotPasswordMale db s mobile).body.LeadsBelow 3 := by
  unfold forgotPasswordMale
  split
  · exact leadsBelow_redirect rfl (by decide)
  · exact leadsBelow_other nofun

theorem forgotPasswordFemale_leads (mobile : Option Text) :
    (forgotPasswordFemale db s mobile).body.LeadsBelow 3 := by
  unfold forgotPasswordFemale
  extract_lets
  split
  · exact leadsBelow_redirect rfl (by decide)
  · split
    · exact leadsBelow_redirect rfl (by decide)
    · exact leadsBelow_other nofun

theorem verifyOtp_leads (otp : Option Text) : (verifyOtp db s otp).body.LeadsBelow 3 := by
  unfold verifyOtp
  split
  · exact leadsBelow_redirect rfl (by decide)
  · exact leadsBelow_redirect rfl (by decide)

theorem resetPasswordGet_leads : (resetPasswordGet db s).body.LeadsBelow 1 := by
  unfold resetPasswordGet
  split
  · exact leadsBelow_other nofun
  · exact leadsBelow_redirect rfl (by decide)

theorem resetPassword_leads (password : Option Text) :
    (resetPassword P env db s password).body.LeadsBelow 3 := by
  unfold resetPassword
  split
  · exact leadsBelow_redirect rfl (by decide)
  · split
    · exact leadsBelow_redirect rfl (by decide)
    · exact leadsBelow_redirect rfl (by decide)
    · split
      · exact leadsBelow_other nofun
      · split
        · exact leadsBelow_other nofun
        · exact leadsBelow_redirect rfl (by decide)

theorem registerSalon_leads (form : SalonForm) :
    (registerSalon P env db s form).body.LeadsBelow 3 := by
  unfold registerSalon
  split_ifs
  · exact leadsBelow_other nofun
  · exact leadsBelow_other nofun
  · exact leadsBelow_other nofun
  · split
    · exact leadsBelow_other nofun
    · split
      · exact leadsBelow_other nofun
      · exact leadsBelow_redirect rfl (by decide)

theorem rateSalon_leads (salonId : Nat) (rating : Option Text) :
    (rateSalon env db s salonId rating).body.LeadsBelow 3 := by
  unfold rateSalon
  extract_lets
  split
  · exact leadsBelow_redirect rfl (by decide)
  · split
    · exact leadsBelow_redirect rfl (by decide)
    · split
      · exact leadsBelow_other nofun
      · exact leadsBelow_redirect rfl (by decide)

theorem toggleVerify_leads (salonId : Nat) (passKey : Option Text) :
    (toggleVerify P env db s salonId passKey).body.LeadsBelow 3 := by
  unfold toggleVerify
  split
  · exact leadsBelow_redirect rfl (by decide)
  · split
    · exact leadsBelow_other nofun
    · extract_lets
      split
      · exact leadsBelow_other nofun
      · exact leadsBelow_redirect rfl (by decide)
    · exact leadsBelow_redirect rfl (by decide)

theorem workerTogglePage_leads (salonId : Nat) :
    (workerTogglePage db s salonId).body.LeadsBelow 2 := by
  unfold workerTogglePage
  split_ifs
  · exact leadsBelow_redirect rfl (by decide)
  · exact leadsBelow_redirect rfl (by simp [Request.hops])
  · split
    · exact leadsBelow_redirect rfl (by decide)
    · split
      · exact leadsBelow_other nofun
      · exact leadsBelow_other nofun

theorem verifyWorkerAccessPost_leads (salonId : Nat) (passKey : Option Text) :
    (verifyWorkerAccessPost P db s salonId passKey).body.LeadsBelow 3 := by
  unfold verifyWorkerAccessPost
  split
  · exact leadsBelow_redirect rfl (by simp [Request.hops])
  · split
    · exact leadsBelow_other nofun
    · exact leadsBelow_redirect rfl (by decide)
    · exact leadsBelow_redirect rfl (by simp [Request.hops])

theorem verifyWorkerPage_leads (salonId : Nat) (passKey : Option Text) :
    (verifyWorkerPage P db s salonId passKey).body.LeadsBelow 3 := by
  unfold verifyWorkerPage
  split
  · exact leadsBelow_other nofun
  · exact leadsBelow_redirect rfl (by simp [Request.hops])
  · exact leadsBelow_redirect rfl (by simp [Request.hops])

theorem updateWorkerCount_leads (salonId : Nat) (workerCount : Option Text) :
    (updateWorkerCount env db s salonId workerCount).body.LeadsBelow 3 := by
  unfold updateWorkerCount
  split
  · exact leadsBelow_redirect rfl (by decide)
  · extract_lets
    split_ifs
    · exact leadsBelow_redirect rfl (by simp [Request.hops])
    · exact leadsBelow_other nofun
    · split
      · exact leadsBelow_other nofun
      · exact leadsBelow_redirect rfl (by simp [Request.hops])

theorem bookSlotForSalon_leads (salonId : Nat) (form : Option BookForm) :
    (bookSlotForSalon env db s salonId form).body.LeadsBelow
      (Request.bookSlotForSalon salonId form).hops := by
  cases form with
  | none =>
    unfold bookSlotForSalon
    split
    · exact leadsBelow_redirect rfl (by simp [Request.hops])
    · split
      · exact leadsBelow_redirect rfl (by simp [Request.hops])
      · exact leadsBelow_other nofun
  | some form =>
    unfold bookSlotForSalon
    split
    · exact leadsBelow_redirect rfl (by simp [Request.hops])
    · split
      · exact leadsBelow_redirect rfl (by simp [Request.hops])
      · dsimp only
        split
        · exact leadsBelow_redirect rfl (by simp [Request.hops])
        · exact leadsBelow_redirect rfl (by simp [Request.hops])
        · exact leadsBelow_other nofun

theorem listSalons_leads (search : Option Text) :
    (listSalons P db s search).body.LeadsBelow 0 := by
  unfold listSalons
  split
  · exact leadsBelow_other nofun
  · exact leadsBelow_other nofun

theorem recommend_leads (lat lon category : Option Text) :
    (recommend db s lat lon category).body.LeadsBelow 3 := by
  unfold recommend
  split_ifs
  · exact leadsBelow_redirect rfl (by decide)
  · exact leadsBelow_other nofun
  · exact leadsBelow_other nofun
  · exact leadsBelow_other nofun

theorem getBookedSlots_leads (salonId : Nat) (slotDate : Text) :
    (getBookedSlots db s salonId slotDate).body.LeadsBelow 0 := by
  unfold getBookedSlots
  split
  · exact leadsBelow_other nofun
  · exact leadsBelow_other nofun

theorem payment_leads : (payment env db s).body.LeadsBelow 2 := by
  unfold payment
  split
  · split
    · exact leadsBelow_redirect rfl (by decide)
    · extract_lets
      split
      · exact leadsBelow_redirect rfl (by decide)
      · exact leadsBelow_other nofun
  · exact leadsBelow_redirect rfl (by decide)

theorem paymentSuccess_leads (form : PaymentForm) :
    (paymentSuccess P env db s form).body.LeadsBelow 3 := by
  unfold paymentSuccess
  split
  · exact leadsBelow_redirect rfl (by decide)
  · extract_lets
    split_ifs
    · exact leadsBelow_redirect rfl (by decide)
    · exact leadsBelow_redirect rfl (by decide)
    · split
      · exact leadsBelow_redirect rfl (by decide)
      · split
        · exact leadsBelow_redirect rfl (by decide)
        · split
          · exact leadsBelow_redirect rfl (by decide)
          · exact leadsBelow_redirect rfl (by decide)

/-- Every redirect goes to a route from which fewer redirects remain. -/
theorem handle_leads (req : Request) : (handle P env db s req).body.LeadsBelow req.hops := by
  cases req with
  | page template => exact leadsBelow_other nofun
  | uploadedFile filename => exact leadsBelow_other nofun
  | unrouted => exact leadsBelow_other nofun
  | loginPage form =>
    cases form with
    | none => exact leadsBelow_redirect rfl (by decide)
    | some form => exact loginPage_leads form
  | logout => exact leadsBelow_redirect rfl (by decide)
  | adminDashboard => exact adminDashboard_leads
  | adminLogout => exact leadsBelow_redirect rfl (by decide)
  | databaseViews => exact databaseViews_leads
  | deleteUser id => exact deleteRow_leads _
  | deleteSalon id => exact deleteRow_leads _
  | deleteService id => exact deleteRow_leads _
  | deleteBooking id => exact deleteRow_leads _
  | auth page action form => exact handleAuth_leads action page form
  | forgotPassword page mobile =>
    cases page with
    | male => exact forgotPasswordMale_leads mobile
    | female => exact forgotPasswordFemale_leads mobile
  | verifyOtp otp => exact verifyOtp_leads otp
  | resetPasswordGet => exact resetPasswordGet_leads
  | resetPassword password => exact resetPassword_leads password
  | registerSalon form => exact registerSalon_leads form
  | showSalons search => exact listSalons_leads search
  | recommend lat lon category => exact recommend_leads lat lon category
  | rateSalon salonId rating => exact rateSalon_leads salonId rating
  | toggleVerify salonId passKey => exact toggleVerify_leads salonId passKey
  | workerTogglePage salonId => exact workerTogglePage_leads salonId
  | verifyWorkerPageGet salonId => exact leadsBelow_other nofun
  | verifyWorkerAccessPost salonId passKey => exact verifyWorkerAccessPost_leads salonId passKey
  | verifyWorkerPageForm salonId => exact leadsBelow_other nofun
  | verifyWorkerPage salonId passKey => exact verifyWorkerPage_leads salonId passKey
  | updateWorkerCount salonId workerCount => exact updateWorkerCount_leads salonId workerCount
  | bookSlotForSalon salonId form => exact bookSlotForSalon_leads salonId form
  | getBookedSlots salonId slotDate => exact getBookedSlots_leads salonId slotDate
  | payment salonId => exact payment_leads
  | paymentSuccess form => exact paymentSuccess_leads form

end Handlers

section Runs
variable {P : Platform} {evs es : List Event} {σ : Sys} {e e' : Event}

/-- A reply that changes nothing and that a browser can show, or follow. -/
structure Outcome.Harmless (db : Db) (s : Session) (o : Outcome) : Prop where
  db : o.db = db
  session : o.session = s
  lands : o.body.Lands

theorem workerTogglePage_harmless {db : Db} {s : Session} {salonId : Nat}
    (hsound : SalonsSound db) : (workerTogglePage db s salonId).Harmless db s := by
  unfold workerTogglePage
  split_ifs
  · exact ⟨rfl, rfl, trivial⟩
  · exact ⟨rfl, rfl, trivial⟩
  · split
    · exact ⟨rfl, rfl, trivial⟩
    · rename_i salon hfind
      obtain ⟨count, hcount, -⟩ := (hsound _ _ (Table.find?_eq_some.mp hfind)).workers
      rw [hcount]
      exact ⟨rfl, rfl, trivial⟩

theorem bookSlotForSalon_harmless (env : Env) {db : Db} {s : Session} {salonId : Nat} :
    (bookSlotForSalon env db s salonId none).Harmless db s := by
  unfold bookSlotForSalon
  split
  · exact ⟨rfl, rfl, trivial⟩
  · split
    · exact ⟨rfl, rfl, trivial⟩
    · exact ⟨rfl, rfl, trivial⟩

theorem payment_harmless (env : Env) {db : Db} {s : Session} :
    (payment env db s).Harmless db s := by
  unfold payment
  split
  · split
    · exact ⟨rfl, rfl, trivial⟩
    · extract_lets
      split
      · exact ⟨rfl, rfl, trivial⟩
      · exact ⟨rfl, rfl, trivial⟩
  · exact ⟨rfl, rfl, trivial⟩

theorem plainRoutes_harmless {env : Env} {db : Db} {s : Session} :
    ∀ route ∈ plainRoutes, (handle P env db s route.2).Harmless db s := by
  have hpage : ∀ template, (handle P env db s (.page template)).Harmless db s :=
    fun _ => ⟨rfl, rfl, trivial⟩
  have hreset : (resetPasswordGet db s).Harmless db s := by
    unfold resetPasswordGet
    split
    · exact ⟨rfl, rfl, trivial⟩
    · exact ⟨rfl, rfl, trivial⟩
  have hadmin : (adminDashboard db s).Harmless db s := by
    unfold adminDashboard
    split
    · exact ⟨rfl, rfl, trivial⟩
    · exact ⟨rfl, rfl, trivial⟩
  simp only [plainRoutes, List.forall_mem_cons]
  exact ⟨hpage _, hpage _, hpage _, hpage _, hpage _, hpage _, hpage _, hreset, ⟨rfl, rfl, trivial⟩,
    ⟨rfl, rfl, trivial⟩, hadmin, nofun⟩

theorem salonRoutes_harmless {env : Env} {db : Db} {s : Session} {salonId : Nat}
    (hsound : SalonsSound db) :
    ∀ route ∈ salonRoutes salonId, (handle P env db s route.2).Harmless db s := by
  simp only [salonRoutes, List.forall_mem_cons]
  exact ⟨workerTogglePage_harmless hsound, ⟨rfl, rfl, rfl⟩, ⟨rfl, rfl, rfl⟩,
    bookSlotForSalon_harmless env, payment_harmless env, nofun⟩

/-- The routes behind a redirect, on tables whose salons have a number of workers. -/
theorem urlFor_harmless {env : Env} {db : Db} {s : Session} {endpoint : Text}
    {salonId : Option Nat} {req : Request} (hsound : SalonsSound db)
    (h : urlFor endpoint salonId = some req) : (handle P env db s req).Harmless db s := by
  have hmem : ∀ routes : List (Text × Request), routes.lookup endpoint = some req →
      (endpoint, req) ∈ routes := by
    intro routes hlookup
    obtain ⟨l₁, l₂, rfl, -⟩ := List.lookup_eq_some_iff.mp hlookup
    exact List.mem_append_right l₁ List.mem_cons_self
  cases salonId with
  | none => exact plainRoutes_harmless _ (hmem _ h)
  | some id => exact salonRoutes_harmless hsound _ (hmem _ h)

theorem exists_of_target {req : Request} (h : e.target = some req) : ∃ endpoint salonId,
    e.outcome.body = .redirect endpoint salonId ∧ urlFor endpoint salonId = some req := by
  unfold Event.target at h
  split at h
  · rename_i endpoint salonId hbody
    exact ⟨endpoint, salonId, hbody, h⟩
  · cases h

theorem LeadsTo.hops (hserved : e.outcome = handle P e.env e.before e.cookie e.request)
    (h : e.LeadsTo e') : e'.request.hops < e.request.hops := by
  obtain ⟨endpoint, salonId, hbody, hurl⟩ := exists_of_target h.2.2
  obtain ⟨req, hreq, hlt⟩ := handle_leads e.request endpoint salonId (hserved ▸ hbody)
  rw [hurl, Option.some.injEq] at hreq
  exact hreq ▸ hlt

theorem hops_le (req : Request) : req.hops ≤ 3 := by
  cases req with
  | loginPage form => cases form <;> simp [Request.hops]
  | bookSlotForSalon salonId form => cases form <;> simp [Request.hops]
  | _ => simp [Request.hops]

/-- How an event of a run was served. -/
structure Event.Sound (P : Platform) (e : Event) : Prop where
  served : e.outcome = handle P e.env e.before e.cookie e.request
  salons : SalonsSound e.before

theorem sound_of_mem (h : Run (Step P) Sys.init evs σ) (he : e ∈ evs) : e.Sound P := by
  obtain ⟨pre, post, τ, τ', rfl, hpre, hstep, -⟩ := h.at_mem he
  exact ⟨hstep.served, hstep.before ▸ salons_sound hpre⟩

theorem LeadsTo.harmless (hsound : e'.Sound P) (h : e.LeadsTo e') :
    e'.outcome.Harmless e'.before e'.cookie := by
  obtain ⟨endpoint, salonId, -, hurl⟩ := exists_of_target h.2.2
  rw [hsound.served]
  exact urlFor_harmless hsound.salons hurl

/-- Along a chain the number of redirects that remain goes down; tables and session stay. -/
theorem chain_ends (he : e.Sound P) (hes : ∀ x ∈ es, x.Sound P)
    (hchain : List.IsChain Event.LeadsTo (e :: es)) :
    es.length ≤ e.request.hops ∧ ∀ x ∈ es,
      x.outcome.db = x.before ∧ x.outcome.session = e.outcome.session ∧ x.outcome.body.Lands := by
  induction es generalizing e with
  | nil => exact ⟨Nat.zero_le _, fun x hx => absurd hx List.not_mem_nil⟩
  | cons e' es ih =>
    obtain ⟨hfirst, hrest⟩ := List.isChain_cons_cons.mp hchain
    obtain ⟨he', hes'⟩ := List.forall_mem_cons.mp hes
    obtain ⟨hlength, hall⟩ := ih he' hes' hrest
    have hlt := LeadsTo.hops he.served hfirst
    have hharmless := LeadsTo.harmless he' hfirst
    have hsession : e'.outcome.session = e.outcome.session := hharmless.session.trans hfirst.2.1
    refine ⟨Nat.succ_le_of_lt (Nat.lt_of_le_of_lt hlength hlt), ?_⟩
    intro x hx
    cases List.mem_cons.mp hx with
    | inl heq => exact heq ▸ ⟨hharmless.db, hsession, hharmless.lands⟩
    | inr hmem =>
      obtain ⟨hdb, hkept, hlands⟩ := hall x hmem
      exact ⟨hdb, hkept.trans hsession, hlands⟩

/-- Every redirect has a target, and whoever follows redirects is at their end after three. -/
theorem redirects_end (h : Run (Step P) Sys.init evs σ) :
    (∀ e ∈ evs, ∀ endpoint salonId, e.outcome.body = .redirect endpoint salonId →
      (urlFor endpoint salonId).isSome = true) ∧
    ∀ e es, (e :: es).Sublist evs → List.IsChain Event.LeadsTo (e :: es) →
      es.length ≤ 3 ∧ ∀ x ∈ es,
        x.outcome.db = x.before ∧ x.outcome.session = e.outcome.session ∧ x.outcome.body.Lands := by
  constructor
  · intro e he endpoint salonId hbody
    have hserved := (sound_of_mem h he).served
    obtain ⟨req, hreq, -⟩ := handle_leads e.request endpoint salonId (hserved ▸ hbody)
    rw [hreq]
    rfl
  · intro e es hsub hchain
    have hsound : ∀ x ∈ e :: es, x.Sound P := fun x hx => sound_of_mem h (hsub.subset hx)
    obtain ⟨he, hes⟩ := List.forall_mem_cons.mp hsound
    obtain ⟨hlength, hall⟩ := chain_ends he hes hchain
    exact ⟨hlength.trans (hops_le e.request), hall⟩

end Runs

/-- Someone who is not logged in submits the passkey, and follows the redirects. -/
def anonymousPasskey : Script where
  inputs := opening "1" ++ [sends 3 (.verifyWorkerAccessPost 1 (some "1234".toList)),
    sends 3 (.workerTogglePage 1), sends 3 (.loginPage none), sends 3 (.page "male_page.html")]
  served := by decide +kernel

theorem redirects_end_anonymous :
    (anonymousPasskey.events.drop 5).length = 4 ∧
      List.IsChain Event.LeadsTo (anonymousPasskey.events.drop 5) ∧
      ∀ e es, anonymousPasskey.events.drop 5 = e :: es → es.length ≤ 3 := by
  have hchain : List.IsChain Event.LeadsTo (anonymousPasskey.events.drop 5) := by decide +kernel
  refine ⟨by decide +kernel, hchain, ?_⟩
  intro e es hes
  have hsub : (e :: es).Sublist anonymousPasskey.events := hes ▸ List.drop_sublist _ _
  exact ((redirects_end anonymousPasskey.steps).2 e es hsub (hes ▸ hchain)).1

end Gloora
