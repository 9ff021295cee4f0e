import Gloora.History

/-!
# The rows of `users_data`

What every stored user satisfies, and which user a login finds. Registrations insert rows,
password resets change hashes, deletions remove rows, and nothing else touches the table.
-/

namespace Gloora
set_option autoImplicit false

open PyText Keyed Runs

/-- The UNIQUE constraints of `users_data`. -/
def UsersUnique (db : Db) : Prop := ∀ id u id' u', (id, u) ∈ db.users.rows →
  (id', u') ∈ db.users.rows →
  u.username = u'.username ∨ u.email = u'.email ∨ u.mobile = u'.mobile → id = id'

def AllUsers (Q : User → Prop) (db : Db) : Prop := ∀ id u, (id, u) ∈ db.users.rows → Q u

/-- A user as `handle_auth` stores it, apart from the password. -/
structure User.WellFormed (u : User) : Prop where
  username : strip u.username = u.username
  named : u.username ≠ []
  email : strip u.email = u.email
  gmail : isGmail u.email = true
  mobile : strip u.mobile = u.mobile

theorem isGmail_nil : isGmail [] = false := by decide

section Statements
variable {db db' : Db} {w : Write} {id : Nat} {u : User}

theorem clashes_iff {u v : User} : Db.clashes u v = true ↔
    v.username = u.username ∨ v.email = u.email ∨ v.mobile = u.mobile := by
  simp [Db.clashes, or_assoc]

theorem exec_insertUser (h : db.exec (.insertUser u) = some db') :
    db' = { db with users := db.users.insert u } ∧
      ∀ id v, (id, v) ∈ db.users.rows → Db.clashes u v = false := by
  simp only [Db.exec] at h
  split at h
  · cases h
  · rename_i hnone
    refine ⟨(Option.some.inj h).symm, ?_⟩
    intro id v hv
    rw [Bool.eq_false_iff]
    intro hclash
    exact hnone (Option.isSome_iff_exists.mpr (Table.exists_first? hv hclash))

theorem exec_unique (h : db.exec w = some db') (hunique : UsersUnique db) : UsersUnique db' := by
  rcases exec_cases h with rfl | rfl
  · exact hunique
  cases w with
  | insertUser u =>
    have hfree := (exec_insertUser h).2
    have hnew : ∀ id v, (id, v) ∈ db.users.rows →
        ¬ (v.username = u.username ∨ v.email = u.email ∨ v.mobile = u.mobile) := by
      intro id v hv hclash
      rw [← clashes_iff, hfree id v hv] at hclash
      cases hclash
    intro id v id' v' hv hv' hsame
    rcases Table.mem_insert.mp hv with hold | ⟨rfl, rfl⟩
    · rcases Table.mem_insert.mp hv' with hold' | ⟨rfl, rfl⟩
      · exact hunique id v id' v' hold hold' hsame
      · exact absurd hsame (hnew id v hold)
    · rcases Table.mem_insert.mp hv' with hold' | ⟨rfl, rfl⟩
      · exact absurd (by simpa only [eq_comm] using hsame) (hnew id' v' hold')
      · rfl
  | setPassword mobile hash =>
    intro id v id' v' hv hv' hsame
    obtain ⟨u, hu, rfl⟩ := Table.mem_update.mp hv
    obtain ⟨u', hu', rfl⟩ := Table.mem_update.mp hv'
    refine hunique id u id' u' hu hu' ?_
    split at hsame <;> split at hsame <;> exact hsame
  | deleteUser k =>
    intro id v id' v' hv hv' hsame
    exact hunique id v id' v' (Table.mem_delete.mp hv).1 (Table.mem_delete.mp hv').1 hsame
  | _ => exact hunique

theorem exec_allUsers {Q : User → Prop} (h : db.exec w = some db') (hall : AllUsers Q db)
    (hinsert : ∀ u, w = .insertUser u → Q u)
    (hset : ∀ mobile hash, w = .setPassword mobile hash → ∀ u, Q u → Q { u with password := hash }) :
    AllUsers Q db' := by
  rcases exec_cases h with rfl | rfl
  · exact hall
  cases w with
  | insertUser u =>
    intro id v hv
    rcases Table.mem_insert.mp hv with hold | ⟨-, rfl⟩
    · exact hall id v hold
    · exact hinsert v rfl
  | setPassword mobile hash =>
    intro id v hv
    obtain ⟨u, hu, rfl⟩ := Table.mem_update.mp hv
    split
    · exact hset mobile hash rfl u (hall id u hu)
    · exact hall id u hu
  | deleteUser k => exact fun id v hv => hall id v (Table.mem_delete.mp hv).1
  | _ => exact hall

/-- A row stays as it is unless the user is deleted or the password of the mobile is set. -/
theorem exec_userKept (h : db.exec w = some db') (hu : (id, u) ∈ db.users.rows)
    (hdelete : w ≠ .deleteUser id) (hset : ∀ hash, w ≠ .setPassword u.mobile hash) :
    (id, u) ∈ db'.users.rows := by
  rcases exec_cases h with rfl | rfl
  · exact hu
  cases w with
  | insertUser v => exact Table.mem_insert.mpr (.inl hu)
  | setPassword mobile hash =>
    refine Table.mem_update.mpr ⟨u, hu, ?_⟩
    rw [if_neg]
    intro hmobile
    exact hset hash (by rw [beq_iff_eq.mp hmobile])
  | deleteUser k =>
    refine Table.mem_delete.mpr ⟨hu, ?_⟩
    rw [beq_eq_false_iff_ne]
    rintro rfl
    exact hdelete rfl
  | _ => exact hu

end Statements

section Requests
variable {P : Platform} {env : Env} {db : Db} {s : Session} {action : Option Text}
  {page : GenderPage} {form : AuthForm}

/-- The row `handle_auth` inserts. -/
def newUser (P : Platform) (env : Env) (page : GenderPage) (form : AuthForm) : User where
  username := stripped form.username
  email := stripped form.email
  mobile := stripped form.mobile
  password := P.generatePasswordHash env.salt (stripped form.password)
  gender := page.endpoint.toList

/-- What `handle_auth` checks before it looks at the action. -/
structure AuthForm.Complete (form : AuthForm) : Prop where
  username : stripped form.username ≠ []
  gmail : isGmail (stripped form.email) = true
  password : stripped form.password ≠ []

theorem AuthForm.Complete.email (h : form.Complete) : stripped form.email ≠ [] := by
  intro hnil
  have hgmail := h.gmail
  rw [hnil, isGmail_nil] at hgmail
  cases hgmail

theorem AuthForm.Complete.wellFormed (h : form.Complete) : (newUser P env page form).WellFormed where
  username := strip_strip _
  named := h.username
  email := strip_strip _
  gmail := h.gmail
  mobile := strip_strip _

/-- The two tests at the head of `handle_auth`. -/
theorem complete_iff : form.Complete ↔
    ((stripped form.username).isEmpty || (stripped form.email).isEmpty ||
      (stripped form.password).isEmpty) = false ∧ (!isGmail (stripped form.email)) = false := by
  simp only [Bool.or_eq_false_iff, List.isEmpty_eq_false_iff, Bool.not_eq_false']
  constructor
  · intro h
    exact ⟨⟨⟨h.username, h.email⟩, h.password⟩, h.gmail⟩
  · rintro ⟨⟨⟨husername, -⟩, hpassword⟩, hgmail⟩
    exact ⟨husername, hgmail, hpassword⟩

instance : Decidable form.Complete := decidable_of_iff _ complete_iff.symm

theorem handleAuth_incomplete (h : ¬ form.Complete) :
    (handleAuth P env db s action page form).db = db ∧
      (handleAuth P env db s action page form).session = s ∧
      (handleAuth P env db s action page form).body = .redirect page.endpoint.toList none := by
  rw [complete_iff, not_and_or] at h
  unfold handleAuth
  simp only
  split
  · exact ⟨rfl, rfl, rfl⟩
  split
  · exact ⟨rfl, rfl, rfl⟩
  · simp_all

/-- A registration that is accepted. -/
structure Registers (P : Platform) (env : Env) (db : Db) (action : Option Text)
    (page : GenderPage) (form : AuthForm) (db' : Db) : Prop where
  action : action = some "register".toList
  complete : form.Complete
  executed : env.execute 0 db (.insertUser (newUser P env page form)) = .ok db'

theorem handleAuth_cases (P : Platform) (env : Env) (db : Db) (s : Session)
    (action : Option Text) (page : GenderPage) (form : AuthForm) :
    Registers P env db action page form (handleAuth P env db s action page form).db ∨
      (handleAuth P env db s action page form).db = db := by
  by_cases hcomplete : form.Complete
  · obtain ⟨hfields, hgmail⟩ := complete_iff.mp hcomplete
    unfold handleAuth
    simp only [hfields, hgmail, Bool.false_eq_true, if_false]
    split
    · rename_i haction
      split
      · rename_i db' hexec
        exact .inl ⟨haction, hcomplete, hexec⟩
      · split <;> exact .inr rfl
    split
    · repeat' split
      all_goals exact .inr rfl
    · exact .inr rfl
  · exact .inr (handleAuth_incomplete hcomplete).1

theorem issues_insertUser {req : Request} {u : User} (h : req.issues s (.insertUser u)) :
    ∃ page action form, req = .auth page action form := by
  cases req with
  | auth page action form => exact ⟨page, action, form, rfl⟩
  | _ => simp [Request.issues] at h

theorem issues_setPassword {req : Request} {mobile hash : Text}
    (h : req.issues s (.setPassword mobile hash)) : ∃ password, req = .resetPassword password := by
  cases req with
  | resetPassword password => exact ⟨password, rfl⟩
  | _ => simp [Request.issues] at h

end Requests

section Steps
variable {P : Platform} {σ σ' : Sys} {evs : List Event} {e : Event} {Q : User → Prop}

/-- What every registration establishes holds of all users, if password changes keep it or
there are none. -/
theorem step_allUsers (hall : AllUsers Q σ.db) (hstep : Step P σ e σ')
    (hnew : ∀ env page form, form.Complete → Q (newUser P env page form))
    (hset : (∃ password, e.request = .resetPassword password) → e.outcome.db = e.before ∨
      ∀ u hash, Q u → Q { u with password := hash }) : AllUsers Q σ'.db := by
  rw [hstep.db]
  rw [← hstep.before] at hall
  by_cases hauth : ∃ page action form, e.request = .auth page action form
  · obtain ⟨page, action, form, hreq⟩ := hauth
    have hserved := hstep.served
    rw [hreq, handle] at hserved
    rw [hserved]
    rcases handleAuth_cases P e.env e.before e.cookie action page form with hregisters | hsame
    · apply exec_allUsers (Env.execute_ok.mp hregisters.executed).2 hall
      · rintro u ⟨⟩
        exact hnew e.env page form hregisters.complete
      · rintro mobile hash ⟨⟩
    · rw [hsame]
      exact hall
  · obtain ⟨ws, hws, hissues⟩ := hstep.effect.writes
    by_cases hreset : ∃ password, e.request = .resetPassword password
    · rcases hset hreset with hsame | hkeep
      · rw [hsame]
        exact hall
      · apply hws.preserved (AllUsers Q) hall
        intro a b w hw ha hexec
        apply exec_allUsers hexec ha
        · rintro u rfl
          exact absurd (issues_insertUser (hissues _ hw)) hauth
        · rintro mobile hash rfl u hu
          exact hkeep u hash hu
    · apply hws.preserved (AllUsers Q) hall
      intro a b w hw ha hexec
      apply exec_allUsers hexec ha
      · rintro u rfl
        exact absurd (issues_insertUser (hissues _ hw)) hauth
      · rintro mobile hash rfl
        exact absurd (issues_setPassword (hissues _ hw)) hreset

theorem users_wellFormed (h : Run (Step P) Sys.init evs σ) : AllUsers User.WellFormed σ.db := by
  apply h.preserved fun τ => AllUsers User.WellFormed τ.db
  · intro id u hu
    simp [Sys.init, initAllDatabases] at hu
  · intro τ e τ' _ hτ hstep
    refine step_allUsers hτ hstep (fun _ _ _ hcomplete => hcomplete.wellFormed) fun _ => .inr ?_
    intro u hash hu
    exact ⟨hu.username, hu.named, hu.email, hu.gmail, hu.mobile⟩

theorem users_unique (h : Run (Step P) Sys.init evs σ) : UsersUnique σ.db := by
  apply h.preserved fun τ => UsersUnique τ.db
  · intro id u _ _ hu
    simp [Sys.init, initAllDatabases] at hu
  · intro τ e τ' _ hτ hstep
    obtain ⟨ws, hws, -⟩ := hstep.effect.writes
    rw [hstep.db]
    rw [← hstep.before] at hτ
    exact hws.preserved UsersUnique hτ fun a b w _ ha hexec => exec_unique hexec ha

end Steps

section Logins
variable {P : Platform} {env : Env} {db : Db} {s : Session} {page : GenderPage} {form : AuthForm}
  {id : Nat} {u : User} {username email password : Text}

/-- The user whose credentials these are. -/
def Db.authenticate (db : Db) (P : Platform) (username email password : Text) :
    Option (Nat × User) :=
  (db.findUser username email).filter fun r => P.checkPasswordHash r.2.password password

theorem authenticate_eq_some (hunique : UsersUnique db) :
    db.authenticate P username email password = some (id, u) ↔
      (id, u) ∈ db.users.rows ∧ u.username = username ∧ u.email = email ∧
        P.checkPasswordHash u.password password = true := by
  rw [Db.authenticate, Option.filter_eq_some_iff]
  constructor
  · rintro ⟨hfind, hcheck⟩
    obtain ⟨hrow, hmatch⟩ := Table.first?_mem hfind
    simp only [Bool.and_eq_true, beq_iff_eq] at hmatch
    exact ⟨hrow, hmatch.1, hmatch.2, hcheck⟩
  · rintro ⟨hrow, rfl, rfl, hcheck⟩
    obtain ⟨⟨id', u'⟩, hfind⟩ := Table.exists_first? (q := fun v => v.username == u.username &&
      v.email == u.email) hrow (by simp)
    obtain ⟨hrow', hmatch⟩ := Table.first?_mem hfind
    simp only [Bool.and_eq_true, beq_iff_eq] at hmatch
    obtain rfl := hunique id' u' id u hrow' hrow (.inl hmatch.1)
    obtain rfl := Table.mem_unique hrow' hrow
    exact ⟨hfind, hcheck⟩

/-- What a login that is not refused at the door answers. -/
inductive LoginReply (P : Platform) (db : Db) (s : Session) (form : AuthForm) (o : Outcome) : Prop where
  | admin (hadmin : P.isAdmin (stripped form.username) (stripped form.email)
        (stripped form.password) = true)
      (hsession : o.session = adminSession) (hbody : o.body = .redirect "admin_dashboard".toList none)
  | user (id : Nat) (u : User)
      (hadmin : P.isAdmin (stripped form.username) (stripped form.email)
        (stripped form.password) = false)
      (hfound : db.authenticate P (stripped form.username) (stripped form.email)
        (stripped form.password) = some (id, u))
      (hsession : o.session = userSession id u) (hbody : o.body = .redirect "help_page".toList none)
  | refused (hadmin : P.isAdmin (stripped form.username) (stripped form.email)
        (stripped form.password) = false)
      (hfound : db.authenticate P (stripped form.username) (stripped form.email)
        (stripped form.password) = none)
      (hsession : o.session = s) (page : GenderPage)
      (hbody : o.body = .redirect page.endpoint.toList none)

/-- What both login handlers do with a triple; a refusal leads to a page of the handler's own. -/
def loginBranch (P : Platform) (db : Db) (s : Session) (form : AuthForm) (page : GenderPage) :
    Outcome :=
  if P.isAdmin (stripped form.username) (stripped form.email) (stripped form.password) then
    redirectTo db adminSession "admin_dashboard" "Admin Login Successful" "success"
  else
    match db.authenticate P (stripped form.username) (stripped form.email)
        (stripped form.password) with
    | some (id, u) =>
      { db
        session := userSession id u
        body := .redirect "help_page".toList none
        flashes := [⟨"Welcome back, ".toList ++ u.username ++ ['!'], "success".toList⟩] }
    | none => redirectTo db s page.endpoint "Invalid credentials!" "error"

theorem loginPage_eq (P : Platform) (db : Db) (s : Session) (form : AuthForm) :
    loginPage P db s form = loginBranch P db s form .male := by
  unfold loginPage loginBranch Db.authenticate
  simp only
  congr 1
  cases db.findUser (stripped form.username) (stripped form.email) with
  | none => rfl
  | some r =>
    obtain ⟨id, u⟩ := r
    cases hcheck : P.checkPasswordHash u.password (stripped form.password) <;>
      simp [hcheck, Option.filter, GenderPage.endpoint]

theorem handleAuth_login (h : form.Complete) :
    handleAuth P env db s (some "login".toList) page form = loginBranch P db s form page := by
  obtain ⟨hfields, hgmail⟩ := complete_iff.mp h
  have haction : some "login".toList ≠ some "register".toList := by decide
  unfold handleAuth loginBranch Db.authenticate
  simp only [hfields, hgmail, haction, Bool.false_eq_true, if_false, if_true]
  congr 1
  cases db.findUser (stripped form.username) (stripped form.email) with
  | none => rfl
  | some r =>
    obtain ⟨id, u⟩ := r
    cases hcheck : P.checkPasswordHash u.password (stripped form.password) <;>
      simp [hcheck, Option.filter]

theorem loginBranch_reply (P : Platform) (db : Db) (s : Session) (form : AuthForm)
    (page : GenderPage) : LoginReply P db s form (loginBranch P db s form page) := by
  unfold loginBranch
  split
  · rename_i hadmin
    exact .admin hadmin rfl rfl
  rename_i hadmin
  rw [Bool.not_eq_true] at hadmin
  split
  · rename_i id u hfound
    exact .user id u hadmin hfound rfl rfl
  · rename_i hfound
    exact .refused hadmin hfound rfl page rfl

end Logins

end Gloora
