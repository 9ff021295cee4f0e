import Gloora.Accounts
import Gloora.Play
import Gloora.Sessions

/-!
# Resetting a password

The three requests of a reset hand on `reset_mobile`, `reset_otp` and `otp_verified` in the
session. The first one stops at the name `random`, which app.py never imports, and no handler
ever sets the key that the last one asks for.
-/

namespace Gloora
set_option autoImplicit false

open PyText Keyed Runs

section Sessions
variable {P : Platform} {σ : Sys} {evs : List Event}

/-- The keys the second and the third request depend on. -/
def Session.resetting (s : Session) : Option Text × Bool := (s.resetOtp, s.otpVerified)

theorem handle_resetting (P : Platform) (env : Env) (db : Db) (s : Session) (req : Request) :
    (handle P env db s req).session.resetting = s.resetting ∨
      (handle P env db s req).session.resetting = (none, false) := by
  have hleaves := handle_leaves P env db s req
  generalize (handle P env db s req).session = s' at hleaves ⊢
  cases hleaves with
  | fresh => exact .inr rfl
  | admin => exact .inr rfl
  | user id u => exact .inr rfl
  | reset password => exact .inr rfl
  | _ => exact .inl rfl

/-- No session ever holds an OTP, or the mark that one was verified. -/
theorem never_resetting (h : Run (Step P) Sys.init evs σ) :
    ∀ b, ∀ c ∈ σ.jar b, c.resetting = (none, false) := by
  apply h.preserved fun τ => ∀ b, ∀ c ∈ τ.jar b, c.resetting = (none, false)
  · simp [Sys.init]
  · intro τ e τ' _ hτ hstep b c hc
    rcases (mem_jar hstep).mp hc with ⟨-, rfl⟩ | hold
    · have hcookie : e.cookie.resetting = (none, false) :=
        hstep.presented_keeps (fun s => s.resetting = (none, false)) rfl (hτ _)
      rw [hstep.served]
      rcases handle_resetting P e.env e.before e.cookie e.request with hsame | hnone
      · rw [hsame, hcookie]
      · exact hnone
    · exact hτ b c hold

theorem presented_resetting {σ' : Sys} {e : Event} (h : Run (Step P) Sys.init evs σ)
    (hstep : Step P σ e σ') : e.cookie.resetting = (none, false) :=
  hstep.presented_keeps (fun s => s.resetting = (none, false)) rfl (never_resetting h _)

/-- Every POST /reset-password of a run is sent back and leaves the tables as they are. -/
theorem resetPassword_refused (h : Run (Step P) Sys.init evs σ) :
    ∀ e ∈ evs, ∀ password, e.request = .resetPassword password →
      e.outcome.db = e.before ∧
        e.outcome.body = .redirect "forgot_password_male".toList none := by
  intro e he password hreq
  obtain ⟨_, _, _, _, -, hpre, hstep, -⟩ := h.at_mem he
  have hverified : e.cookie.otpVerified = false :=
    (Prod.mk.inj (presented_resetting hpre hstep)).2
  rw [hstep.served, hreq, handle, resetPassword, hverified]
  exact ⟨rfl, rfl⟩

end Sessions

section Users
variable {P : Platform} {σ : Sys} {evs : List Event}

/-- Mobile numbers are stored without white space around them. -/
def MobilesStripped (db : Db) : Prop := ∀ id u, (id, u) ∈ db.users.rows → strip u.mobile = u.mobile

theorem mobiles_stripped (h : Run (Step P) Sys.init evs σ) : MobilesStripped σ.db :=
  fun id u hu => (users_wellFormed h id u hu).mobile

end Users

section Flow
variable {P : Platform} {σ σ' : Sys} {evs : List Event} {e : Event} {id b : Nat} {u : User}

/-- The user's hash is one of the new password, and nothing else changed. -/
def PasswordSet (P : Platform) (db db' : Db) (id : Nat) (password : Text) : Prop :=
  ∃ salt, db'.users = db.users.update (fun k _ => k == id) fun u =>
    { u with password := P.generatePasswordHash salt password }

/-- From the first request of browser `b` on, the reset goes through: the OTP it was sent is
accepted, then the new password, and no request ends in an error. -/
def ResetCompletes (P : Platform) (b : Nat) (id : Nat) (password : Text) (e : Event) (σ : Sys) :
    Prop :=
  e.outcome.body.failed = false ∧ (∃ otp, e.outcome.session.resetOtp = some otp) ∧
  ∀ otp e₂ σ₂, e.outcome.session.resetOtp = some otp → CurrentStep P b σ e₂ σ₂ →
    e₂.browser = b → e₂.request = .verifyOtp (some otp) → e₂.outcome.body.failed = false ∧
  ∀ e₃ σ₃, CurrentStep P b σ₂ e₃ σ₃ → e₃.browser = b →
    e₃.request = .resetPassword (some password) → e₃.outcome.body.failed = false ∧
      PasswordSet P e.before σ₃.db id password

theorem forgotPasswordMale_found {db : Db} (s : Session) {mobile : Text} {r : Nat × User}
    (h : (db.users.first? fun u => u.mobile == mobile && u.gender == "male".toList) = some r) :
    forgotPasswordMale db s (some mobile) = raise db s "NameError".toList := by
  rw [forgotPasswordMale, Option.bind_some, h]

theorem forgotPasswordFemale_found {db : Db} (s : Session) {mobile : Text} {r : Nat × User}
    (hne : mobile ≠ []) (hstrip : strip mobile = mobile)
    (h : (db.users.first? fun u => u.mobile == mobile && u.gender == "female".toList) = some r) :
    forgotPasswordFemale db s (some mobile) = raise db s "NameError".toList := by
  have hstripped : stripped (some mobile) = mobile := hstrip
  have hnonempty : ¬ mobile.isEmpty = true := by simpa using hne
  rw [forgotPasswordFemale, hstripped, if_neg hnonempty, h]

/-- The first request of a reset stops at the missing name, whoever it is for. -/
theorem forgotPassword_fails (h : Run (Step P) Sys.init evs σ) (hu : (id, u) ∈ σ.db.users.rows)
    (hmobile : u.mobile ≠ []) {page : GenderPage} (hgender : u.gender = page.endpoint.toList)
    (hstep : Step P σ e σ') (hreq : e.request = .forgotPassword page (some u.mobile)) :
    e.outcome.body = .error "NameError".toList := by
  have hfound : ∃ r, (σ.db.users.first? fun v => v.mobile == u.mobile &&
      v.gender == page.endpoint.toList) = some r :=
    Table.exists_first? hu (by simp [hgender])
  obtain ⟨r, hr⟩ := hfound
  rw [hstep.served, hreq, hstep.before]
  cases page with
  | male => exact congrArg Outcome.body (forgotPasswordMale_found e.cookie hr)
  | female =>
    exact congrArg Outcome.body
      (forgotPasswordFemale_found e.cookie hmobile (mobiles_stripped h id u hu) hr)

/-- No reset goes through, for any registered user, on either page. -/
theorem reset_never_completes (h : Run (Step P) Sys.init evs σ)
    (hu : (id, u) ∈ σ.db.users.rows) (hmobile : u.mobile ≠ []) {page : GenderPage}
    (hgender : u.gender = page.endpoint.toList) (password : Text)
    (hstep : Step P σ e σ') (hreq : e.request = .forgotPassword page (some u.mobile)) :
    ¬ ResetCompletes P b id password e σ' := by
  rintro ⟨hserved, -⟩
  rw [forgotPassword_fails h hu hmobile hgender hstep hreq] at hserved
  cases hserved

end Flow

def registeredBob : Script where
  inputs := opening "1"
  served := by decide +kernel

def forgetful : Event :=
  registeredBob.final.event plain (sends 2 (.forgotPassword .male (some "bob".toList)))

theorem bob_registered : ∃ u, (2, u) ∈ registeredBob.final.db.users.rows ∧
    u.mobile = "bob".toList ∧ u.gender = GenderPage.male.endpoint.toList := by
  have hrow : (registeredBob.final.db.users.find? 2).isSome := by decide +kernel
  have hbob : ∀ u ∈ registeredBob.final.db.users.find? 2,
      u.mobile = "bob".toList ∧ u.gender = "male".toList := by decide +kernel
  obtain ⟨u, hu⟩ := Option.isSome_iff_exists.mp hrow
  exact ⟨u, Table.find?_eq_some.mp hu, hbob u hu⟩

theorem forgetful_step : CurrentStep plain 2 registeredBob.final forgetful
    (registeredBob.final.after forgetful) :=
  ⟨step_event plain _ _, fun _ => rfl⟩

theorem reset_never_completes_bob :
    ¬ ResetCompletes plain 2 2 "new".toList forgetful (registeredBob.final.after forgetful) := by
  obtain ⟨u, hu, hmobile, hgender⟩ := bob_registered
  exact reset_never_completes registeredBob.steps hu (by simp [hmobile]) hgender _
    forgetful_step.1 (hmobile ▸ rfl)

/-- The request of a registered user ends in a NameError. -/
theorem reset_stops : ¬ ∀ (P : Platform) (evs : List Event) (σ σ' : Sys) (id b : Nat) (u : User)
    (page : GenderPage) (password : Text) (e : Event), Run (Step P) Sys.init evs σ →
    (id, u) ∈ σ.db.users.rows → u.mobile ≠ [] → u.gender = page.endpoint.toList →
    password ≠ [] → CurrentStep P b σ e σ' → e.browser = b →
    e.request = .forgotPassword page (some u.mobile) → ResetCompletes P b id password e σ' := by
  intro h
  obtain ⟨u, hu, hmobile, hgender⟩ := bob_registered
  have hserved := (h plain _ _ _ 2 2 u .male "new".toList forgetful registeredBob.steps hu
    (by simp [hmobile]) hgender (by decide) forgetful_step rfl (hmobile ▸ rfl)).1
  exact absurd hserved (by decide +kernel)

end Gloora
