import Gloora.ProgramEffects
import Gloora.ResetFlow

/-!
# Passwords and logins

A user registers, resets a password, and logs in by one of two handlers. All of them strip
what they read, except POST /reset-password, and only one of the login handlers tests the
fields first.
-/

namespace Gloora
set_option autoImplicit false

open PyText Keyed Runs Transactions

section Replies
variable {P : Platform} {env : Env} {db : Db} {s : Session} {page : GenderPage} {form : AuthForm}
  {id : Nat} {u : User}

/-- The session of a user that is logged in. -/
structure Session.BelongsTo (s : Session) (id : Nat) (u : User) : Prop where
  username : s.username = some u.username
  email : s.email = some u.email
  userId : s.userId = some id

/-- The reply to a login that succeeds. -/
structure Outcome.LogsIn (o : Outcome) (id : Nat) (u : User) : Prop where
  session : o.session.BelongsTo id u
  body : o.body = .redirect "help_page".toList none

/-- The triple is the user's, and not the administrator's. -/
structure AuthForm.Opens (form : AuthForm) (P : Platform) (db : Db) (id : Nat) (u : User) : Prop where
  notAdmin : P.isAdmin (stripped form.username) (stripped form.email) (stripped form.password) = false
  found : ∃ v, db.authenticate P (stripped form.username) (stripped form.email)
    (stripped form.password) = some (id, v) ∧ v.username = u.username ∧ v.email = u.email

theorem endpoint_ne_help (page : GenderPage) : page.endpoint.toList ≠ "help_page".toList := by
  cases page <;> decide

theorem loginBranch_logsIn_iff :
    (loginBranch P db s form page).LogsIn id u ↔ form.Opens P db id u := by
  have hreply := loginBranch_reply P db s form page
  constructor
  · rintro ⟨hsession, hbody⟩
    cases hreply with
    | admin hadmin _ hbody' =>
      rw [hbody'] at hbody
      exact absurd hbody (by decide)
    | user id' v hadmin hfound hsession' _ =>
      rw [hsession'] at hsession
      obtain rfl := Option.some.inj hsession.userId
      exact ⟨hadmin, v, hfound, Option.some.inj hsession.username, Option.some.inj hsession.email⟩
    | refused hadmin _ _ page' hbody' =>
      rw [hbody'] at hbody
      exact absurd (Body.redirect.inj hbody).1 (endpoint_ne_help page')
  · rintro ⟨hadmin, v, hfound, husername, hemail⟩
    cases hreply with
    | admin hadmin' _ _ =>
      rw [hadmin] at hadmin'
      cases hadmin'
    | user id' v' _ hfound' hsession hbody =>
      obtain ⟨rfl, rfl⟩ := Prod.mk.inj (Option.some.inj (hfound'.symm.trans hfound))
      refine ⟨?_, hbody⟩
      rw [hsession]
      exact ⟨congrArg some husername, congrArg some hemail, rfl⟩
    | refused _ hfound' _ _ _ =>
      rw [hfound] at hfound'
      cases hfound'

theorem loginPage_logsIn_iff : (loginPage P db s form).LogsIn id u ↔ form.Opens P db id u := by
  rw [loginPage_eq, loginBranch_logsIn_iff]

theorem handleAuth_logsIn_iff :
    (handleAuth P env db s (some "login".toList) page form).LogsIn id u ↔
      form.Complete ∧ form.Opens P db id u := by
  by_cases hcomplete : form.Complete
  · rw [handleAuth_login hcomplete, loginBranch_logsIn_iff]
    exact ⟨fun hopens => ⟨hcomplete, hopens⟩, And.right⟩
  · refine ⟨fun hlogs => ?_, fun hboth => absurd hboth.1 hcomplete⟩
    have hbody := hlogs.body
    rw [(handleAuth_incomplete hcomplete).2.2] at hbody
    exact absurd (Body.redirect.inj hbody).1 (endpoint_ne_help page)

/-- A browser that was not logged in belongs to a user afterwards only by a login. -/
theorem loginBranch_belongs_iff (hs : s.userId = none) :
    (loginBranch P db s form page).session.BelongsTo id u ↔ form.Opens P db id u := by
  have hlogs : (loginBranch P db s form page).LogsIn id u ↔ form.Opens P db id u :=
    loginBranch_logsIn_iff
  rw [← hlogs]
  refine ⟨fun hbelongs => ⟨hbelongs, ?_⟩, Outcome.LogsIn.session⟩
  have huser := hbelongs.userId
  cases loginBranch_reply P db s form page with
  | admin _ hsession _ =>
    rw [hsession] at huser
    cases huser
  | user _ _ _ _ _ hbody => exact hbody
  | refused _ _ hsession _ _ =>
    rw [hsession, hs] at huser
    cases huser

theorem handleAuth_belongs_iff (hs : s.userId = none) :
    (handleAuth P env db s (some "login".toList) page form).session.BelongsTo id u ↔
      form.Complete ∧ form.Opens P db id u := by
  by_cases hcomplete : form.Complete
  · rw [handleAuth_login hcomplete, loginBranch_belongs_iff hs]
    exact ⟨fun hopens => ⟨hcomplete, hopens⟩, And.right⟩
  · refine ⟨fun hbelongs => ?_, fun hboth => absurd hboth.1 hcomplete⟩
    have huser := hbelongs.userId
    rw [(handleAuth_incomplete hcomplete).2.1, hs] at huser
    cases huser

end Replies

section Hashes
variable {P : Platform} {σ σ' : Sys} {evs : List Event} {e : Event} {s : Session}
  {form : AuthForm} {id : Nat} {u : User}

/-- The stored hash is one of a password that is not empty. -/
def User.Hashed (P : Platform) (u : User) : Prop :=
  ∃ salt p, u.password = P.generatePasswordHash salt p ∧ p ≠ []

theorem users_hashed (h : Run (Step P) Sys.init evs σ) : AllUsers (User.Hashed P) σ.db := by
  apply h.history fun _ τ => AllUsers (User.Hashed P) τ.db
  · intro id u hu
    simp [Sys.init, initAllDatabases] at hu
  · intro es τ e τ' hrun hτ hstep
    refine step_allUsers hτ hstep ?_ ?_
    · intro env page form hcomplete
      exact ⟨env.salt, stripped form.password, rfl, hcomplete.password⟩
    · -- no reset of a run goes through
      rintro ⟨password, hreq⟩
      exact .inl (resetPassword_refused (hrun.snoc hstep) e (by simp) password hreq).1

/-- Whoever logs in has filled in the form as a registration demands. -/
theorem authenticate_complete (h : Run (Step P) Sys.init evs σ)
    (hfound : σ.db.authenticate P (stripped form.username) (stripped form.email)
      (stripped form.password) = some (id, u)) : form.Complete := by
  obtain ⟨hrow, husername, hemail, hcheck⟩ := (authenticate_eq_some (users_unique h)).mp hfound
  have hwell := users_wellFormed h id u hrow
  obtain ⟨salt, p, hhash, hp⟩ := users_hashed h id u hrow
  rw [hhash, P.check_generate] at hcheck
  exact ⟨husername ▸ hwell.named, hemail ▸ hwell.gmail, hcheck ▸ hp⟩

/-- Both handlers leave the same session, unless the administrator's triple is one that
`handle_auth` refuses at the door. -/
theorem logins_agree_iff (h : Run (Step P) Sys.init evs σ) (env : Env) (s : Session)
    (page : GenderPage) (form : AuthForm) :
    (loginPage P σ.db s form).session =
        (handleAuth P env σ.db s (some "login".toList) page form).session ↔
      (P.isAdmin (stripped form.username) (stripped form.email) (stripped form.password) = true →
        form.Complete ∨ s = adminSession) := by
  by_cases hcomplete : form.Complete
  · rw [handleAuth_login hcomplete, loginPage_eq]
    refine ⟨fun _ _ => .inl hcomplete, fun _ => ?_⟩
    unfold loginBranch
    split
    · rfl
    · split <;> rfl
  · rw [(handleAuth_incomplete hcomplete).2.1, loginPage_eq]
    cases loginBranch_reply P σ.db s form .male with
    | admin hadmin hsession _ =>
      rw [hsession]
      exact ⟨fun heq _ => .inr heq.symm, fun hor => ((hor hadmin).resolve_left hcomplete).symm⟩
    | user id u _ hfound _ _ => exact absurd (authenticate_complete h hfound) hcomplete
    | refused hadmin _ hsession _ _ =>
      refine ⟨fun _ hadmin' => ?_, fun _ => hsession⟩
      rw [hadmin] at hadmin'
      cases hadmin'

end Hashes

theorem logins_agree_iff_bob :
    (loginPage plain registeredBob.final.db {} (account "bob")).session =
      (handleAuth plain (calmly 0 "") registeredBob.final.db {} (some "login".toList) .female
        (account "bob")).session :=
  (logins_agree_iff registeredBob.steps _ _ _ _).mpr (by decide)

/-- A deployment whose administrator has no Gmail address. -/
def administered : Platform :=
  { plain with
    adminUsername := some "admin".toList
    adminEmail := some "admin@gloora.in".toList
    adminPassword := some "pw".toList }

def adminForm : AuthForm where
  username := some "admin".toList
  email := some "admin@gloora.in".toList
  mobile := none
  password := some "pw".toList

theorem admin_refused_at_door : ¬ ∀ (P : Platform) (evs : List Event) (σ : Sys) (env : Env)
    (s : Session) (page : GenderPage) (form : AuthForm), Run (Step P) Sys.init evs σ →
    (loginPage P σ.db s form).session =
      (handleAuth P env σ.db s (some "login".toList) page form).session := by
  intro h
  have hsame := h administered [] Sys.init (calmly 0 "") {} .male adminForm .nil
  exact absurd hsame (by decide +kernel)

section Registered
variable {P : Platform} {σ σ' : Sys} {evs : List Event} {e : Event} {id : Nat} {u : User}

/-- The row a registration inserted: the one under a new key. -/
def Event.registered? (e : Event) : Option (Nat × User) :=
  match e.request with
  | .auth _ _ _ => (e.outcome.db.users.find? (e.before.users.seq + 1)).map fun u =>
    (e.before.users.seq + 1, u)
  | _ => none

def Event.Deletes (e : Event) (id : Nat) : Prop :=
  e.request = .deleteUser id ∧ e.outcome.db ≠ e.before

def Event.Resets (e : Event) (mobile : Text) : Prop :=
  (∃ password, e.request = .resetPassword password) ∧ e.cookie.resetMobile = some mobile ∧
    e.outcome.db ≠ e.before

theorem Step.registered {page : GenderPage} {action : Option Text} {form : AuthForm}
    (h : Step P σ e σ') (hreq : e.request = .auth page action form)
    (hregistered : e.registered? = some (id, u)) :
    form.Complete ∧ u = newUser P e.env page form ∧ (id, u) ∈ σ'.db.users.rows := by
  rw [Event.registered?, hreq, Option.map_eq_some_iff] at hregistered
  obtain ⟨v, hv, hid⟩ := hregistered
  obtain ⟨rfl, rfl⟩ := Prod.mk.inj hid
  have hrow := Table.find?_eq_some.mp hv
  rw [h.db]
  have hserved := h.served
  rw [hreq, handle] at hserved
  rcases handleAuth_cases P e.env e.before e.cookie action page form with hregisters | hsame
  · rw [← hserved] at hregisters
    rw [(exec_insertUser (Env.execute_ok.mp hregisters.executed).2).1] at hrow
    rcases Table.mem_insert.mp hrow with hold | ⟨-, hnew⟩
    · exact absurd (Table.le_seq hold) (Nat.not_succ_le_self _)
    · exact ⟨hregisters.complete, hnew, Table.find?_eq_some.mp hv⟩
  · rw [hserved, hsame] at hrow
    exact absurd (Table.le_seq hrow) (Nat.not_succ_le_self _)

theorem resetPassword_cases (P : Platform) (env : Env) (db : Db) (s : Session)
    (password : Option Text) :
    (∃ mobile p, s.resetMobile = some mobile ∧ password = some p ∧
      env.execute 0 db (.setPassword mobile (P.generatePasswordHash env.salt p)) =
        .ok (resetPassword P env db s password).db) ∨
    ((resetPassword P env db s password).db = db ∧
      ⟨"Password updated successfully! Please login.".toList, "success".toList⟩ ∉
        (resetPassword P env db s password).flashes) := by
  unfold resetPassword
  split
  · exact .inr ⟨rfl, by simp [redirectTo]⟩
  split
  · exact .inr ⟨rfl, by simp [redirectTo]⟩
  · exact .inr ⟨rfl, by simp [redirectTo]⟩
  rename_i mobile _ hmobile
  split
  · exact .inr ⟨rfl, by simp [raise]⟩
  rename_i p
  split
  · exact .inr ⟨rfl, by simp [raise]⟩
  · rename_i db' hexec
    exact .inl ⟨mobile, p, hmobile, rfl, hexec⟩

theorem Step.userKept (h : Step P σ e σ') (hu : (id, u) ∈ σ.db.users.rows)
    (hdeletes : ¬ e.Deletes id) (hresets : ¬ e.Resets u.mobile) : (id, u) ∈ σ'.db.users.rows := by
  rw [h.db]
  rw [← h.before] at hu
  by_cases hsame : e.outcome.db = e.before
  · rw [hsame]
    exact hu
  by_cases hreset : ∃ password, e.request = .resetPassword password
  · obtain ⟨password, hreq⟩ := hreset
    have hserved := h.served
    rw [hreq, handle] at hserved
    rcases resetPassword_cases P e.env e.before e.cookie password with
      ⟨mobile, p, hmobile, -, hexec⟩ | ⟨hdb, -⟩
    · rw [hserved]
      apply exec_userKept (Env.execute_ok.mp hexec).2 hu (by simp)
      rintro hash ⟨⟩
      exact hresets ⟨⟨password, hreq⟩, hmobile, hsame⟩
    · rw [hserved, hdb]
      exact hu
  · obtain ⟨ws, hws, hissues⟩ := h.effect.writes
    apply hws.preserved (fun db => (id, u) ∈ db.users.rows) hu
    intro a b w hw ha hexec
    apply exec_userKept hexec ha
    · rintro rfl
      have hissue := hissues _ hw
      have hreq : e.request = .deleteUser id := by
        generalize e.request = req at hissue
        cases req with
        | deleteUser k =>
          obtain rfl := Write.deleteUser.inj hissue
          rfl
        | _ => simp [Request.issues] at hissue
      exact hdeletes ⟨hreq, hsame⟩
    · rintro hash rfl
      exact hreset (issues_setPassword (hissues _ hw))

theorem user_kept (h : Run (Step P) σ evs σ') (hu : (id, u) ∈ σ.db.users.rows)
    (hevs : ∀ x ∈ evs, ¬ x.Deletes id ∧ ¬ x.Resets u.mobile) : (id, u) ∈ σ'.db.users.rows := by
  apply h.preserved (fun τ => (id, u) ∈ τ.db.users.rows) hu
  intro τ x τ' hx hτ hstep
  exact hstep.userKept hτ (hevs x hx).1 (hevs x hx).2

/-- A stored user is opened by the form with its credentials, and by no other password. -/
theorem opens_iff {db : Db} {form : AuthForm} {salt : Nat} {p : Text}
    (hunique : UsersUnique db) (hu : (id, u) ∈ db.users.rows)
    (hhash : u.password = P.generatePasswordHash salt p)
    (husername : stripped form.username = u.username) (hemail : stripped form.email = u.email) :
    form.Opens P db id u ↔ P.isAdmin u.username u.email (stripped form.password) = false ∧
      stripped form.password = p := by
  constructor
  · rintro ⟨hadmin, v, hfound, -⟩
    obtain ⟨hrow, -, -, hcheck⟩ := (authenticate_eq_some hunique).mp hfound
    obtain rfl := Table.mem_unique hrow hu
    rw [hhash, P.check_generate] at hcheck
    rw [husername, hemail] at hadmin
    exact ⟨hadmin, hcheck⟩
  · rintro ⟨hadmin, hp⟩
    refine ⟨?_, u, ?_, rfl, rfl⟩
    · rw [husername, hemail]
      exact hadmin
    · rw [authenticate_eq_some hunique, hhash, P.check_generate]
      exact ⟨hu, husername.symm, hemail.symm, hp⟩

theorem users_unique_racing {jar : Nat → List Session} {moves : List ServerMove} {τ : Server}
    (h : Run (PoolStep P) (Server.start initAllDatabases jar) moves τ) :
    UsersUnique τ.store.db := by
  have hstart : UsersUnique initAllDatabases := by
    intro id u _ _ hu
    simp [initAllDatabases] at hu
  exact (run_keeps hstart (fun _ => keeps_true _)
    (fun _ _ _ hdb _ hexec => exec_unique hexec hdb) h).1.1

/-- A registered user logs in with the password of the registration and with no other, and
no interleaving of requests stores a username, an email or a mobile number twice. -/
theorem register_then_login (P : Platform) :
    (∀ (pre later : List Event) (e : Event) (σ : Sys) (page : GenderPage) (action : Option Text)
      (registration form : AuthForm) (id : Nat) (u : User) (s : Session),
      Run (Step P) Sys.init (pre ++ e :: later) σ →
      e.request = .auth page action registration → e.registered? = some (id, u) →
      (∀ x ∈ later, ¬ x.Deletes id ∧ ¬ x.Resets u.mobile) → s.userId = none →
      stripped form.username = stripped registration.username →
      stripped form.email = stripped registration.email →
      P.isAdmin (stripped form.username) (stripped form.email) (stripped form.password) = false →
      ((loginPage P σ.db s form).session.BelongsTo id u ↔
        stripped form.password = stripped registration.password) ∧
      ∀ env page', (handleAuth P env σ.db s (some "login".toList) page' form).session.BelongsTo
        id u ↔ stripped form.password = stripped registration.password) ∧
    ∀ (jar : Nat → List Session) (moves : List ServerMove) (τ : Server),
      Run (PoolStep P) (Server.start initAllDatabases jar) moves τ → UsersUnique τ.store.db := by
  refine ⟨?_, fun jar moves τ h => users_unique_racing h⟩
  intro pre later e σ page action registration form id u s h hreq hregistered hlater hs
    husername hemail hadmin
  obtain ⟨t, t', -, hstep, hrest⟩ := h.at_event
  obtain ⟨hcomplete, rfl, hrow⟩ := hstep.registered hreq hregistered
  have hkept := user_kept hrest hrow hlater
  have hopens : form.Opens P σ.db id (newUser P e.env page registration) ↔
      stripped form.password = stripped registration.password := by
    rw [opens_iff (users_unique h) hkept rfl husername hemail]
    rw [husername, hemail] at hadmin
    exact ⟨And.right, fun hpassword => ⟨hadmin, hpassword⟩⟩
  have hform : stripped form.password = stripped registration.password → form.Complete := by
    intro hpassword
    exact ⟨husername ▸ hcomplete.username, hemail ▸ hcomplete.gmail,
      hpassword ▸ hcomplete.password⟩
  refine ⟨?_, fun env page' => ?_⟩
  · rw [loginPage_eq, loginBranch_belongs_iff hs]
    exact hopens
  · rw [handleAuth_belongs_iff hs, hopens]
    exact ⟨And.right, fun hpassword => ⟨hform hpassword, hpassword⟩⟩

end Registered

/-- Bob registers, and Ann registers and logs in after him. -/
def bobRegisters : Event := Sys.init.event plain (sends 2 (registerAs "bob"))

def annsRequests : List Event × Sys :=
  play plain (Sys.init.after bobRegisters) [sends 1 (registerAs "ann"), sends 1 (loginAs "ann")]

/-- Bob's credentials with blanks around them. -/
def spacedForm : AuthForm where
  username := some " bob".toList
  email := some "bob@gmail.com ".toList
  mobile := none
  password := some " pw ".toList

theorem register_then_login_bob : ∃ u,
    (loginPage plain annsRequests.2.db {} spacedForm).session.BelongsTo 1 u ∧
    (handleAuth plain (calmly 0 "") annsRequests.2.db {} (some "login".toList) .female
      spacedForm).session.BelongsTo 1 u := by
  have hsome : bobRegisters.registered?.isSome := by decide +kernel
  obtain ⟨⟨id, u⟩, hregistered⟩ := Option.isSome_iff_exists.mp hsome
  have hid : ∀ r ∈ bobRegisters.registered?, r.1 = 1 := by decide +kernel
  obtain rfl : id = 1 := hid (id, u) hregistered
  have hrun : Run (Step plain) Sys.init ([] ++ bobRegisters :: annsRequests.1) annsRequests.2 :=
    .cons (step_event plain _ _) (play_steps plain _ _)
  have hrequests : ∀ x ∈ annsRequests.1, x.request ≠ .deleteUser 1 ∧
      ∀ p, x.request ≠ .resetPassword p := by
    simp [annsRequests, play, Sys.event, sends, registerAs, loginAs]
  have hlater : ∀ x ∈ annsRequests.1, ¬ x.Deletes 1 ∧ ¬ x.Resets u.mobile := by
    intro x hx
    exact ⟨fun h => (hrequests x hx).1 h.1, fun ⟨⟨p, hp⟩, _⟩ => (hrequests x hx).2 p hp⟩
  have hlogins := (register_then_login plain).1 [] annsRequests.1 bobRegisters annsRequests.2
    .male _ (account "bob") spacedForm 1 u {} hrun rfl hregistered hlater rfl (by decide)
    (by decide) (by decide)
  exact ⟨u, hlogins.1.mpr (by decide), (hlogins.2 _ _).mpr (by decide)⟩

section Reset
variable {P : Platform} {env : Env} {db : Db} {s : Session} {id : Nat} {u : User} {p : Text}

/-- Tables of users that registrations and password resets lead to. -/
structure Accounts (db : Db) : Prop where
  unique : UsersUnique db
  registered : AllUsers User.WellFormed db

theorem accounts_reached {evs : List Event} {σ : Sys} (h : Run (Step P) Sys.init evs σ) :
    Accounts σ.db :=
  ⟨users_unique h, users_wellFormed h⟩

/-- POST /reset-password tells the user that the password is changed. -/
def Outcome.ReportsReset (o : Outcome) : Prop :=
  ⟨"Password updated successfully! Please login.".toList, "success".toList⟩ ∈ o.flashes

instance (o : Outcome) : Decidable o.ReportsReset := by
  unfold Outcome.ReportsReset
  infer_instance

/-- The login form filled in with a user's name and email and with a password. -/
def credentials (u : User) (p : Text) : AuthForm where
  username := some u.username
  email := some u.email
  mobile := none
  password := some p

/-- After a reported reset the password opens both logins exactly when it has no white space
around it and is not empty, unless the administrator has these credentials. -/
theorem reset_then_login_iff (haccounts : Accounts db) (hu : (id, u) ∈ db.users.rows)
    (hmobile : s.resetMobile = some u.mobile)
    (hreported : (resetPassword P env db s (some p)).ReportsReset) :
    (∀ (env' : Env) (s' : Session) (page : GenderPage),
      (loginPage P (resetPassword P env db s (some p)).db s' (credentials u p)).LogsIn id u ∧
      (handleAuth P env' (resetPassword P env db s (some p)).db s' (some "login".toList) page
        (credentials u p)).LogsIn id u) ↔
    strip p = p ∧ p ≠ [] ∧ P.isAdmin u.username u.email p = false := by
  have hwell := haccounts.registered id u hu
  obtain ⟨mobile, p', hmobile', hp', hexec⟩ | ⟨-, hsilent⟩ :=
    resetPassword_cases P env db s (some p)
  case inr => exact absurd hreported hsilent
  rw [hmobile] at hmobile'
  obtain rfl := Option.some.inj hmobile'
  obtain rfl := Option.some.inj hp'
  obtain ⟨-, hexec⟩ := Env.execute_ok.mp hexec
  have hunique := exec_unique hexec haccounts.unique
  have hrow : (id, { u with password := P.generatePasswordHash env.salt p }) ∈
      (resetPassword P env db s (some p)).db.users.rows := by
    rw [← Option.some.inj hexec]
    exact Table.mem_update.mpr ⟨u, hu, by simp⟩
  generalize (resetPassword P env db s (some p)).db = db' at hunique hrow ⊢
  have hopens : (credentials u p).Opens P db' id u ↔
      P.isAdmin u.username u.email (strip p) = false ∧ strip p = p := by
    have hiff : (credentials u p).Opens P db' id
        { u with password := P.generatePasswordHash env.salt p } ↔ _ :=
      opens_iff hunique hrow rfl hwell.username hwell.email
    exact ⟨fun h => hiff.mp ⟨h.notAdmin, h.found⟩,
      fun h => ⟨(hiff.mpr h).notAdmin, (hiff.mpr h).found⟩⟩
  constructor
  · intro hall
    obtain ⟨hcomplete, hopened⟩ := handleAuth_logsIn_iff.mp (hall env {} .male).2
    obtain ⟨hadmin, hstrip⟩ := hopens.mp hopened
    have hne : strip p ≠ [] := hcomplete.password
    rw [hstrip] at hadmin hne
    exact ⟨hstrip, hne, hadmin⟩
  · rintro ⟨hstrip, hne, hadmin⟩ env' s' page
    have hopened : (credentials u p).Opens P db' id u :=
      hopens.mpr ⟨by rw [hstrip]; exact hadmin, hstrip⟩
    have husername : stripped (credentials u p).username = u.username := hwell.username
    have hemail : stripped (credentials u p).email = u.email := hwell.email
    have hpassword : stripped (credentials u p).password = p := hstrip
    refine ⟨loginPage_logsIn_iff.mpr hopened, handleAuth_logsIn_iff.mpr ⟨⟨?_, ?_, ?_⟩, hopened⟩⟩
    · rw [husername]
      exact hwell.named
    · rw [hemail]
      exact hwell.gmail
    · rw [hpassword]
      exact hne

end Reset

/-- The session of a browser that may set the password of Bob's mobile number. -/
def resettingBob : Session where
  resetMobile := some "bob".toList
  otpVerified := true

def bobReset (p : String) : Outcome :=
  resetPassword plain (calmly 0 "") registeredBob.final.db resettingBob (some p.toList)

theorem reset_then_login_iff_bob : ∃ u,
    (loginPage plain (bobReset "new").db {} (credentials u "new".toList)).LogsIn 2 u ∧
    (handleAuth plain (calmly 0 "") (bobReset "new").db {} (some "login".toList) .male
      (credentials u "new".toList)).LogsIn 2 u := by
  obtain ⟨u, hu, hmobile, -⟩ := bob_registered
  exact ⟨u, (reset_then_login_iff (accounts_reached registeredBob.steps) hu
    (congrArg some hmobile.symm) (by decide +kernel)).mpr ⟨by decide, by decide, rfl⟩ _ _ _⟩

/-- The password is stored with its blanks, and the logins strip theirs. -/
theorem spaced_password_locks_out : ¬ ∀ (P : Platform) (env : Env) (db : Db) (s : Session)
    (id : Nat) (u : User) (p : Text), Accounts db → (id, u) ∈ db.users.rows →
    s.otpVerified = true → s.resetMobile = some u.mobile →
    (resetPassword P env db s (some p)).ReportsReset →
    ∀ (env' : Env) (s' : Session) (page : GenderPage),
      (loginPage P (resetPassword P env db s (some p)).db s' (credentials u p)).LogsIn id u ∧
      (handleAuth P env' (resetPassword P env db s (some p)).db s' (some "login".toList) page
        (credentials u p)).LogsIn id u := by
  intro h
  obtain ⟨u, hu, hmobile, -⟩ := bob_registered
  have hrefused : ∀ u ∈ registeredBob.final.db.users.find? 2,
      (loginPage plain (bobReset " new ").db {} (credentials u " new ".toList)).body ≠
        .redirect "help_page".toList none := by decide +kernel
  have hlogs := (h plain (calmly 0 "") registeredBob.final.db resettingBob 2 u " new ".toList
    (accounts_reached registeredBob.steps) hu rfl (congrArg some hmobile.symm) (by decide +kernel)
    (calmly 0 "") {} .male).1
  exact hrefused u (Table.find?_eq_some.mpr hu) hlogs.body

end Gloora
