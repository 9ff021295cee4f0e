import Gloora.Effects
import Gloora.BookingSpec
import Gloora.ProgramEffects

/-!
# Programs and handlers agree

Served alone, a program does what `handle` says, so every run of whole requests is a run of
the server that interleaves their statements.
-/

namespace Gloora
set_option autoImplicit false

open PyText Binary64 Runs Threads Transactions

section Alone
variable {P : Platform} {env : Env} {s : Session} {db view : Db} {k : Nat} {w : Write}

/-- A program that was served alone ends in the tables and with the reply of `o`. -/
def Agrees (result : Db × (Db → Outcome)) (o : Outcome) : Prop :=
  result.1 = o.db ∧ result.2 o.db = o

abbrev Platform.alone (P : Platform) (env : Env) (p : Program) (db view : Db) :
    Db × (Db → Outcome) :=
  (site P).alone env.accepts p db view

theorem agrees_done {reply : Db → Outcome} {o : Outcome} (hdb : o.db = db) (ho : reply db = o) :
    Agrees (P.alone env (.done reply) db view) o := by
  refine ⟨hdb.symm, ?_⟩
  rw [hdb]
  exact ho

theorem alone_reads (next : Db → Program) :
    P.alone env (reads s next) db view = P.alone env (next view) db view := rfl

theorem alone_readsOn (n : Nat) (next : Program) :
    P.alone env (readsOn s n next) db view = P.alone env next db view := by
  induction n with
  | zero => rfl
  | succ n ih => exact ih

theorem alone_answers (reply : Db → Outcome) (hdb : (reply db).db = db) :
    Agrees (P.alone env (answers s reply) db db) (reply db) := by
  have hsame : ∀ o : Outcome, o.db = db → { o with db := db } = o := by
    rintro o rfl
    rfl
  refine ⟨hdb.symm, ?_⟩
  rw [hdb]
  exact hsame (reply db) hdb

theorem alone_write (next : Except Text Db → Program) :
    P.alone env (.call (.write k w) next) db view =
      match env.execute k view w with
      | .ok view' => P.alone env (next (.ok view')) db view'
      | .error e => P.alone env (next (.error e)) db view := by
  unfold Platform.alone Env.execute
  rw [Site.alone]
  cases haccept : env.accepts k with
  | false => rfl
  | true =>
    cases hexec : view.exec w with
    | none =>
      have hsite : (site P).exec view w = none := hexec
      simp only [if_true, hsite]
      rfl
    | some view' =>
      have hsite : (site P).exec view w = some view' := hexec
      simp only [if_true, hsite]

theorem alone_commit (next : Except Text Db → Program) (haccept : env.accepts k = true) :
    P.alone env (.call (.commit k) next) db view = P.alone env (next (.ok view)) view view := by
  simp only [Platform.alone, Site.alone, haccept, if_true]

theorem alone_writes (next : Db → Program) : P.alone env (writes s k w next) db view =
    match env.execute k view w with
    | .ok view' => P.alone env (next view') db view'
    | .error e => (db, fun db => raise db s e) := by
  unfold writes
  rw [alone_write]
  cases env.execute k view w <;> rfl

theorem alone_commits (next : Program) (haccept : env.accepts k = true) :
    P.alone env (commits s k next) db view = P.alone env next view view := by
  unfold commits
  rw [alone_commit _ haccept]

theorem alone_saves (next : Program) : P.alone env (saves s k w next) db db =
    match env.execute k db w with
    | .ok db' => P.alone env next db' db'
    | .error e => (db, fun db => raise db s e) := by
  unfold saves
  rw [alone_writes]
  cases hexec : env.execute k db w with
  | error e => rfl
  | ok db' => exact alone_commits _ (Env.execute_ok.mp hexec).1

variable {o : Outcome}

theorem agrees_saves {f : Db → Outcome} (hf : ∀ db', (f db').db = db') :
    Agrees (P.alone env (saves s k w (.done f)) db db)
      (match env.execute k db w with
        | .error e => raise db s e
        | .ok db' => f db') := by
  rw [alone_saves]
  cases env.execute k db w with
  | error e => exact ⟨rfl, rfl⟩
  | ok db' => exact agrees_done (hf db') rfl

theorem handle_reads {req : Request} (hreq : ∀ w, ¬ req.issues s w) :
    (handle P env db s req).db = db := by
  obtain ⟨ws, hws, hissues⟩ := (handle_effect P env db s req).writes
  exact hws.preserved (fun a => a = db) rfl fun _ _ w hw _ _ => absurd (hissues w hw) (hreq w)

theorem agrees_idle (req : Request) (hreq : ∀ w, ¬ req.issues s w) :
    Agrees (P.alone env (.done fun db => handle P env db s req) db view) (handle P env db s req) :=
  agrees_done (handle_reads hreq) rfl

theorem agrees_answers (req : Request) (hreq : ∀ w, ¬ req.issues s w) :
    Agrees (P.alone env (answers s fun view => handle P env view s req) db db)
      (handle P env db s req) :=
  alone_answers (fun view => handle P env view s req) (handle_reads hreq)

theorem showSalons_agrees (search : Option Text) :
    Agrees (P.alone env (showSalonsProgram P s search) db db) (listSalons P db s search) := by
  unfold showSalonsProgram listSalons
  rw [alone_reads]
  cases showSalons P.finalSigma db.salons search with
  | error e => exact agrees_done rfl rfl
  | ok listed =>
    simp only [alone_readsOn]
    exact agrees_done rfl rfl

theorem agrees_ite {p q : Program} {b : Prop} [Decidable b]
    (hp : b → Agrees (P.alone env p db view) o) (hq : ¬ b → Agrees (P.alone env q db view) o) :
    Agrees (P.alone env (if b then p else q) db view) o := by
  split
  · rename_i hb
    exact hp hb
  · rename_i hb
    exact hq hb

theorem deleteRow_agrees :
    Agrees (P.alone env (deleteRowProgram s w) db db) (deleteRow env db s w) := by
  have h : Agrees (P.alone env (deleteRowProgram s w) db db) (match env.execute 0 db w with
      | .error e => raise db s e
      | .ok db' => quietRedirect db' s "admin_dashboard" none) := agrees_saves fun _ => rfl
  unfold deleteRow
  cases hexec : env.execute 0 db w <;> simpa only [hexec] using h

theorem insertUser_agrees (page : GenderPage) (user : User) :
    Agrees (P.alone env (insertUserProgram s page user) db db)
      (match env.execute 0 db (.insertUser user) with
        | .ok db' =>
          redirectTo db' s page.endpoint "Registration successful! Please login." "success"
        | .error e =>
          if e = "IntegrityError".toList then
            redirectTo db s page.endpoint "Username, Email, or Mobile already exists!" "error"
          else raise db s e) := by
  unfold insertUserProgram
  rw [alone_write]
  cases hexec : env.execute 0 db (.insertUser user) with
  | error e =>
    simp only
    split <;> exact agrees_done rfl rfl
  | ok db' =>
    simp only
    rw [alone_commit _ (Env.execute_ok.mp hexec).1]
    exact agrees_done rfl rfl

theorem handleAuth_agrees (action : Option Text) (page : GenderPage) (form : AuthForm) :
    Agrees (P.alone env (handleAuthProgram P env s action page form) db db)
      (handleAuth P env db s action page form) := by
  unfold handleAuthProgram handleAuth
  simp only
  split
  · exact agrees_done rfl rfl
  split
  · exact agrees_done rfl rfl
  split
  · exact insertUser_agrees _ _
  split
  · split
    · exact agrees_done rfl rfl
    · apply alone_answers
      split
      · split <;> rfl
      · rfl
  · exact agrees_done rfl rfl

theorem resetPassword_agrees (password : Option Text) :
    Agrees (P.alone env (resetPasswordProgram P env s password) db db)
      (resetPassword P env db s password) := by
  unfold resetPasswordProgram resetPassword
  split
  · exact agrees_done rfl rfl
  rcases s.resetMobile with _ | _ | ⟨c, cs⟩
  · exact agrees_done rfl rfl
  · exact agrees_done rfl rfl
  cases password with
  | none => exact agrees_done rfl rfl
  | some p => exact agrees_saves fun _ => rfl

theorem rateSalon_agrees (salonId : Nat) (rating : Option Text) :
    Agrees (P.alone env (rateSalonProgram s salonId rating) db db)
      (rateSalon env db s salonId rating) := by
  unfold rateSalonProgram rateSalon
  simp only
  split
  · exact agrees_done rfl rfl
  rw [alone_reads]
  cases db.salons.find? salonId with
  | none => exact agrees_done rfl rfl
  | some salon => exact agrees_saves fun _ => rfl

theorem toggleVerify_agrees (salonId : Nat) (passKey : Option Text) :
    Agrees (P.alone env (toggleVerifyProgram P s salonId passKey) db db)
      (toggleVerify P env db s salonId passKey) := by
  unfold toggleVerifyProgram toggleVerify
  split
  · exact agrees_done rfl rfl
  rw [alone_reads]
  cases wrongPasskey P (db.salons.find? salonId) passKey with
  | error e => exact agrees_done rfl rfl
  | ok wrong =>
    cases wrong with
    | true => exact agrees_done rfl rfl
    | false =>
      cases db.salons.find? salonId with
      | none => exact agrees_done rfl rfl
      | some salon => exact agrees_saves fun _ => rfl

theorem updateWorkerCount_agrees (salonId : Nat) (field : Option Text) :
    Agrees (P.alone env (updateWorkerCountProgram s salonId field) db db)
      (updateWorkerCount env db s salonId field) := by
  unfold updateWorkerCountProgram updateWorkerCount
  simp only
  split
  · exact agrees_done rfl rfl
  split
  · exact agrees_done rfl rfl
  split
  · exact agrees_done rfl rfl
  · exact agrees_saves fun _ => rfl

/-- The loop falls back to the last commit in the same places. -/
theorem insertServices_agrees (salonId : Nat) (k : Nat) (services : List (Text × Double))
    (done cur : Db) :
    Agrees (P.alone env (insertServicesProgram s salonId k services) done cur)
      (match insertServices env salonId k services done cur with
        | (db', some e) => raise db' s e
        | (db', none) =>
          redirectTo db' s "show_salons" "Salon registered successfully!" "success") := by
  induction services generalizing k done cur with
  | nil =>
    unfold insertServicesProgram insertServices
    cases haccept : env.accepts k with
    | true =>
      rw [alone_commits _ haccept]
      exact agrees_done rfl rfl
    | false => simp [commits, Platform.alone, Site.alone, haccept, Agrees, raise, site]
  | cons service rest ih =>
    obtain ⟨name, price⟩ := service
    unfold insertServicesProgram insertServices
    rw [alone_reads]
    cases cur.services.first? (· == name) with
    | some found =>
      obtain ⟨serviceId, _⟩ := found
      simp only
      rw [alone_writes]
      cases env.execute k cur (.insertSalonService ⟨salonId, serviceId, sqliteReal price⟩) with
      | error e => exact ⟨rfl, rfl⟩
      | ok cur' => exact ih _ _ _
    | none =>
      simp only
      rw [alone_writes]
      cases hexec : env.execute k cur (.insertService name) with
      | error e => exact ⟨rfl, rfl⟩
      | ok cur' =>
        simp only
        rw [alone_commits _ (Env.execute_ok.mp hexec).1, alone_writes]
        cases env.execute (k + 1) cur'
            (.insertSalonService ⟨salonId, cur'.services.seq, sqliteReal price⟩) with
        | error e => exact ⟨rfl, rfl⟩
        | ok cur'' => exact ih _ _ _

theorem registerSalon_agrees (form : SalonForm) :
    Agrees (P.alone env (registerSalonProgram P env s form) db db)
      (registerSalon P env db s form) := by
  unfold registerSalonProgram registerSalon
  split
  · exact agrees_done rfl rfl
  split
  · exact agrees_done rfl rfl
  split
  · exact agrees_done rfl rfl
  rw [alone_writes]
  cases hexec : env.execute 0 db (.insertSalon (newSalon P env s form)) with
  | error e => exact ⟨rfl, rfl⟩
  | ok db' =>
    simp only
    rw [alone_commits _ (Env.execute_ok.mp hexec).1]
    exact insertServices_agrees _ _ _ _ _

theorem paymentSuccess_agrees (form : PaymentForm) :
    Agrees (P.alone env (paymentSuccessProgram P s form) db db)
      (paymentSuccess P env db s form) := by
  unfold paymentSuccessProgram paymentSuccess
  cases s.userId with
  | none => exact agrees_done rfl rfl
  | some userId =>
  simp only
  split
  · exact agrees_done rfl rfl
  split
  · exact agrees_done rfl rfl
  cases s.pendingBooking with
  | none => exact agrees_done rfl rfl
  | some booking =>
    cases s.username with
    | none => exact agrees_done rfl rfl
    | some username =>
      simp only
      rw [alone_write]
      cases hexec : env.execute 0 db (.insertSlot (paidRow _ username booking)) with
      | error e => exact agrees_done rfl rfl
      | ok db' =>
        simp only
        rw [alone_commit _ (Env.execute_ok.mp hexec).1]
        exact agrees_done rfl rfl

theorem getBookedSlots_agrees (salonId : Nat) (slotDate : Text) :
    Agrees (P.alone env (getBookedSlotsProgram s salonId slotDate) db db)
      (getBookedSlots db s salonId slotDate) := by
  unfold getBookedSlotsProgram getBookedSlots
  rw [alone_reads]
  cases db.salons.find? salonId with
  | none => exact agrees_done rfl rfl
  | some salon =>
    simp only
    rw [alone_reads]
    exact agrees_done rfl rfl

/-- The checks before the one of availability do not depend on the paid rows. -/
theorem checkBooking_unpaid {now salonId : Nat} {workerCount : Option Int}
    (paid : Text → List (Option Text)) {form : BookForm} {refusal : Refusal}
    (h : checkBooking now salonId workerCount (fun _ => []) form = .error refusal) :
    checkBooking now salonId workerCount paid form = .error refusal := by
  revert h
  unfold checkBooking
  simp only
  split
  · exact id
  split
  · exact id
  split
  · exact id
  split
  · exact id
  · exact id
  split
  · exact id
  split
  · exact id
  have hfree : ∀ required, firstUnavailable [] (effectiveWorkers workerCount) required = none := by
    intro required
    apply firstUnavailable_none.mpr
    intro l _
    simpa using Int.lt_of_lt_of_le Int.zero_lt_one (effectiveWorkers_pos workerCount)
  rw [hfree]
  intro h
  cases h

theorem bookSlotForSalon_agrees (salonId : Nat) (form : Option BookForm) :
    Agrees (P.alone env (bookSlotForSalonProgram env s salonId form) db db)
      (bookSlotForSalon env db s salonId form) := by
  unfold bookSlotForSalonProgram bookSlotForSalon
  split
  · exact agrees_done rfl rfl
  rw [alone_reads, alone_readsOn]
  cases db.salons.find? salonId with
  | none => cases form <;> exact agrees_done rfl rfl
  | some salon =>
    cases form with
    | none => exact agrees_done rfl rfl
    | some form =>
      simp only
      cases hunpaid : checkBooking env.now salonId salon.workerCount (fun _ => []) form with
      | error refusal =>
        rw [checkBooking_unpaid (db.paidSlotTimes salonId) hunpaid]
        cases refusal <;> exact agrees_done rfl rfl
      | ok booking =>
        rw [alone_reads]
        cases hchecked : checkBooking env.now salonId salon.workerCount
            (db.paidSlotTimes salonId) form with
        | ok booking => exact agrees_done rfl rfl
        | error refusal => cases refusal <;> exact agrees_done rfl rfl

/-- Served alone, every program does what its handler does. -/
theorem program_agrees (req : Request) :
    Agrees (P.alone env (program P env s req) db db) (handle P env db s req) := by
  have hnone : ∀ _ : Write, ¬ False := fun _ h => h
  cases req with
  | loginPage form =>
    cases form with
    | none => exact agrees_idle _ hnone
    | some form =>
      exact agrees_ite (fun _ => agrees_idle (.loginPage (some form)) hnone)
        fun _ => agrees_answers (.loginPage (some form)) hnone
  | deleteUser id => exact deleteRow_agrees
  | deleteSalon id => exact deleteRow_agrees
  | deleteService id => exact deleteRow_agrees
  | deleteBooking id => exact deleteRow_agrees
  | auth page action form => exact handleAuth_agrees action page form
  | resetPassword password => exact resetPassword_agrees password
  | registerSalon form => exact registerSalon_agrees form
  | rateSalon salonId rating => exact rateSalon_agrees salonId rating
  | toggleVerify salonId passKey => exact toggleVerify_agrees salonId passKey
  | updateWorkerCount salonId field => exact updateWorkerCount_agrees salonId field
  | bookSlotForSalon salonId form => exact bookSlotForSalon_agrees salonId form
  | getBookedSlots salonId slotDate => exact getBookedSlots_agrees salonId slotDate
  | paymentSuccess form => exact paymentSuccess_agrees form
  | adminDashboard =>
    exact agrees_ite (fun _ => (alone_readsOn 4 _).symm ▸ agrees_idle .adminDashboard hnone)
      fun _ => agrees_idle .adminDashboard hnone
  | databaseViews =>
    exact agrees_ite (fun _ => (alone_readsOn 3 _).symm ▸ agrees_idle .databaseViews hnone)
      fun _ => agrees_idle .databaseViews hnone
  | forgotPassword page mobile =>
    cases page with
    | male => exact agrees_answers (.forgotPassword .male mobile) hnone
    | female =>
      exact agrees_ite (fun _ => agrees_idle (.forgotPassword .female mobile) hnone)
        fun _ => agrees_answers (.forgotPassword .female mobile) hnone
  | showSalons search => exact showSalons_agrees search
  | recommend lat lon category =>
    exact agrees_ite (fun _ => agrees_idle (.recommend lat lon category) hnone)
      fun _ => agrees_answers (.recommend lat lon category) hnone
  | workerTogglePage salonId =>
    exact agrees_ite (fun _ => agrees_idle (.workerTogglePage salonId) hnone)
      fun _ => agrees_answers (.workerTogglePage salonId) hnone
  | verifyWorkerAccessPost salonId passKey =>
    exact agrees_ite (fun _ => agrees_idle (.verifyWorkerAccessPost salonId passKey) hnone)
      fun _ => agrees_answers (.verifyWorkerAccessPost salonId passKey) hnone
  | verifyWorkerPage salonId passKey =>
    exact agrees_answers (.verifyWorkerPage salonId passKey) hnone
  | _ => exact agrees_idle _ hnone

end Alone

section Pool
variable {P : Platform}

/-- A request served as a whole is one way for the pool to serve it. -/
theorem pool_of_step {σ σ' : Sys} {e : Event} (hstep : Step P σ e σ') {τ : Server}
    (hquiet : τ.Quiet) (hstore : τ.store = ⟨σ.db, none, σ.jar⟩) :
    ∃ moves τ', Run (PoolStep P) τ moves τ' ∧ τ'.Quiet ∧ τ'.store = ⟨σ'.db, none, σ'.jar⟩ := by
  let a : Incoming := ⟨e.browser, e.cookie, e.env, e.request⟩
  let τ₁ : Server := ⟨τ.store, τ.next + 1, Function.update τ.threads τ.next
    (some ⟨a, program P e.env e.cookie e.request⟩)⟩
  have hadmits : (site P).service.admits τ.store a := by
    rw [hstore]
    exact hstep.presented
  have harrives : PoolStep P τ ⟨τ.next, a, .arrives⟩ τ₁ := .arrives hadmits
  have hthread : τ₁.threads τ.next = some ⟨a, program P e.env e.cookie e.request⟩ :=
    Function.update_self _ _ _
  have hsole : Sole τ₁.store τ.next σ.db := .inl ⟨by rw [hstore], by rw [hstore]⟩
  have hunlocked : ∀ d, τ₁.store.writer = some (τ.next, d) → False := by
    rw [hstore]
    exact nofun
  obtain ⟨moves, hserved⟩ := run_alone (V := site P) e.env.accepts _ hthread hsole
    (program_closes (granting_accepted _) a) hunlocked
  have hagrees : Agrees (P.alone e.env (program P e.env e.cookie e.request) σ.db σ.db) e.outcome := by
    rw [hstep.served, hstep.before]
    exact program_agrees e.request
  refine ⟨_, _, Run.cons harrives hserved, ?_, ?_⟩
  · intro i
    change Function.update τ₁.threads τ.next none i = none
    by_cases hi : i = τ.next
    · subst hi
      exact Function.update_self _ _ _
    · rw [Function.update_of_ne hi]
      exact (Function.update_of_ne hi _ _).trans (hquiet i)
  · have hdb : τ₁.store.db = σ.db := by rw [hstore]
    have hside : τ₁.store.side = σ.jar := by rw [hstore]
    have hstored : (finished (site P) e.env.accepts τ₁ τ.next a
        (program P e.env e.cookie e.request) σ.db).store = ⟨e.outcome.db, none,
          Function.update σ.jar e.browser (e.outcome.session :: σ.jar e.browser)⟩ := by
      obtain ⟨hend, hreply⟩ := hagrees
      unfold finished
      simp only [hdb, hside]
      change (⟨(P.alone e.env _ σ.db σ.db).1, none, Function.update σ.jar e.browser
        (((P.alone e.env _ σ.db σ.db).2 (P.alone e.env _ σ.db σ.db).1).session ::
          σ.jar e.browser)⟩ : Store Db (Nat → List Session)) = _
      rw [hend, hreply]
    rw [hstored, hstep.db, hstep.jar]

/-- Every run of whole requests is a run of the pool. -/
theorem pool_of_run {σ : Sys} {evs : List Event} (h : Run (Step P) Sys.init evs σ) :
    ∃ moves τ, Run (PoolStep P) (Server.start initAllDatabases fun _ => []) moves τ ∧ τ.Quiet ∧
      τ.store = ⟨σ.db, none, σ.jar⟩ := by
  induction h with
  | nil => exact ⟨[], _, .nil, fun _ => rfl, rfl⟩
  | snoc _ hstep ih =>
    obtain ⟨moves, τ, hrun, hquiet, hstore⟩ := ih
    obtain ⟨moves', τ', hrun', hquiet', hstore'⟩ := pool_of_step hstep hquiet hstore
    exact ⟨moves ++ moves', τ', hrun.trans hrun', hquiet', hstore'⟩

end Pool

end Gloora
