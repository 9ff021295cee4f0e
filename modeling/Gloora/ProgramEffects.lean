import Gloora.Effects
import Gloora.Programs
import Gloora.Statements

/-!
# What a program can write

`program_keeps` says once, for every request, which statements its program may execute and
where the values bound to them come from, whatever other requests do in between.
-/

namespace Gloora
set_option autoImplicit false

open PyText Binary64 Runs Threads Transactions

section Keeping
variable {P : Platform} {env : Env} {s : Session} {k : Nat} {w : Write} {I : Db → Prop}
  {pre : Write → Prop}

theorem keeps_call {c : Command Write} {next : Except Text Db → Program}
    (hc : ∀ k w, c = .write k w → pre w) (hok : ∀ view, I view → Keeps I pre (next (.ok view)))
    (herror : ∀ e, Keeps I pre (next (.error e))) : Keeps I pre (.call c next) := by
  refine ⟨hc, ?_⟩
  intro r hr
  cases r with
  | ok view => exact hok view (hr view rfl)
  | error e => exact herror e

theorem keeps_reads {next : Db → Program} (h : ∀ view, I view → Keeps I pre (next view)) :
    Keeps I pre (reads s next) :=
  keeps_call (by simp) h fun _ => trivial

theorem keeps_readsOn {n : Nat} {next : Program} (h : Keeps I pre next) :
    Keeps I pre (readsOn s n next) := by
  induction n with
  | zero => exact h
  | succ n ih => exact keeps_reads fun _ _ => ih

theorem keeps_writes {next : Db → Program} (hw : pre w)
    (h : ∀ view, I view → Keeps I pre (next view)) : Keeps I pre (writes s k w next) := by
  refine keeps_call ?_ h fun _ => trivial
  rintro _ _ ⟨⟩
  exact hw

theorem keeps_commits {next : Program} (h : Keeps I pre next) : Keeps I pre (commits s k next) :=
  keeps_call (by simp) (fun _ _ => h) fun _ => trivial

theorem keeps_saves {reply : Db → Outcome} (hw : pre w) :
    Keeps I pre (saves s k w (.done reply)) :=
  keeps_writes hw fun _ _ => keeps_commits trivial

theorem keeps_answers {reply : Db → Outcome} : Keeps I pre (answers s reply) :=
  keeps_reads fun _ _ => trivial

theorem keeps_ite {p q : Program} {b : Prop} [Decidable b] (hp : b → Keeps I pre p)
    (hq : ¬ b → Keeps I pre q) : Keeps I pre (if b then p else q) := by
  split
  · rename_i hb
    exact hp hb
  · rename_i hb
    exact hq hb

def flipped (status : Text) : Text :=
  if status = "ON".toList then "OFF".toList else "ON".toList

/-- The statements a request may execute when all it reads has `I`, with the values it binds. -/
def Request.executes (P : Platform) (env : Env) (s : Session) (I : Db → Prop) :
    Request → Write → Prop
  | .registerSalon form, w => w = .insertSalon (newSalon P env s form) ∨
      (∃ name, w = .insertService name) ∨ ∃ r, w = .insertSalonService r
  | .rateSalon id field, w => ∃ view salon, I view ∧ (id, salon) ∈ view.salons.rows ∧
      ∃ rating : Int, rating = (field.bind pyInt).getD 0 ∧ 1 ≤ rating ∧ rating ≤ 5 ∧
        w = .setRating id (salon.ratingTotal + rating) (salon.ratingCount + 1)
  | .toggleVerify id _, w => ∃ view salon, I view ∧ (id, salon) ∈ view.salons.rows ∧
      w = .setStatus id (flipped salon.status)
  | .updateWorkerCount id _, w => ∃ count, 1 ≤ count ∧ w = .setWorkerCount id count
  | req, w => req.issues s w

theorem issues_of_executes {req : Request} (h : req.executes P env s I w) : req.issues s w := by
  cases req with
  | registerSalon form => exact h.imp_left fun hw => ⟨_, hw⟩
  | rateSalon id field =>
    obtain ⟨_, _, _, _, _, _, _, _, hw⟩ := h
    exact ⟨_, _, hw⟩
  | toggleVerify id passKey =>
    obtain ⟨_, _, _, _, hw⟩ := h
    exact ⟨_, hw⟩
  | updateWorkerCount id field =>
    obtain ⟨_, _, hw⟩ := h
    exact ⟨_, hw⟩
  | _ => exact h

theorem insertServices_keeps {form : SalonForm} (salonId k : Nat) (services : List (Text × Double)) :
    Keeps I ((Request.registerSalon form).executes P env s I)
      (insertServicesProgram s salonId k services) := by
  induction services generalizing k with
  | nil => exact keeps_commits trivial
  | cons service rest ih =>
    obtain ⟨name, price⟩ := service
    apply keeps_reads
    intro view _
    split
    · exact keeps_writes (.inr (.inr ⟨_, rfl⟩)) fun _ _ => ih _
    · apply keeps_writes (.inr (.inl ⟨_, rfl⟩))
      intro view' _
      exact keeps_commits (keeps_writes (.inr (.inr ⟨_, rfl⟩)) fun _ _ => ih _)

theorem handleAuth_keeps (action : Option Text) (page : GenderPage) (form : AuthForm) :
    Keeps I ((Request.auth page action form).executes P env s I)
      (handleAuthProgram P env s action page form) := by
  unfold handleAuthProgram
  apply keeps_ite <;> intro _
  · trivial
  apply keeps_ite <;> intro _
  · trivial
  apply keeps_ite <;> intro _
  · have hfailed : ∀ e, Keeps I ((Request.auth page action form).executes P env s I)
        (if e = "IntegrityError".toList then
          (.done fun db =>
            redirectTo db s page.endpoint "Username, Email, or Mobile already exists!" "error")
        else .done fun db => raise db s e : Program) :=
      fun _ => keeps_ite (fun _ => trivial) fun _ => trivial
    refine keeps_call ?_ (fun _ _ => keeps_call (by simp) (fun _ _ => trivial) hfailed) hfailed
    rintro _ _ ⟨⟩
    exact ⟨_, rfl⟩
  apply keeps_ite <;> intro _
  · exact keeps_ite (fun _ => trivial) fun _ => keeps_answers
  · trivial

theorem resetPassword_keeps (password : Option Text) :
    Keeps I ((Request.resetPassword password).executes P env s I)
      (resetPasswordProgram P env s password) := by
  unfold resetPasswordProgram
  apply keeps_ite <;> intro _
  · trivial
  split
  · trivial
  · trivial
  split
  · trivial
  · exact keeps_saves ⟨_, _, rfl⟩

theorem registerSalon_keeps (form : SalonForm) :
    Keeps I ((Request.registerSalon form).executes P env s I) (registerSalonProgram P env s form) := by
  unfold registerSalonProgram
  apply keeps_ite <;> intro _
  · trivial
  apply keeps_ite <;> intro _
  · trivial
  apply keeps_ite <;> intro _
  · trivial
  exact keeps_writes (.inl rfl) fun _ _ => keeps_commits (insertServices_keeps _ _ _)

theorem rateSalon_keeps (salonId : Nat) (field : Option Text) :
    Keeps I ((Request.rateSalon salonId field).executes P env s I)
      (rateSalonProgram s salonId field) := by
  unfold rateSalonProgram
  apply keeps_ite <;> intro hrating
  · trivial
  apply keeps_reads
  intro view hview
  split
  · trivial
  · rename_i salon hsalon
    have hrow := Keyed.Table.find?_eq_some.mp hsalon
    exact keeps_saves ⟨view, salon, hview, hrow, _, rfl, by omega, by omega, rfl⟩

theorem toggleVerify_keeps (salonId : Nat) (passKey : Option Text) :
    Keeps I ((Request.toggleVerify salonId passKey).executes P env s I)
      (toggleVerifyProgram P s salonId passKey) := by
  unfold toggleVerifyProgram
  apply keeps_ite <;> intro _
  · trivial
  apply keeps_reads
  intro view hview
  split
  · trivial
  · rename_i salon _ hsalon
    exact keeps_saves ⟨view, salon, hview, Keyed.Table.find?_eq_some.mp hsalon, rfl⟩
  · trivial

theorem updateWorkerCount_keeps (salonId : Nat) (field : Option Text) :
    Keeps I ((Request.updateWorkerCount salonId field).executes P env s I)
      (updateWorkerCountProgram s salonId field) := by
  unfold updateWorkerCountProgram
  apply keeps_ite <;> intro _
  · trivial
  apply keeps_ite <;> intro hcount
  · trivial
  apply keeps_ite <;> intro _
  · trivial
  exact keeps_saves ⟨_, by omega, rfl⟩

theorem bookSlotForSalon_keeps (salonId : Nat) (form : Option BookForm) :
    Keeps I ((Request.bookSlotForSalon salonId form).executes P env s I)
      (bookSlotForSalonProgram env s salonId form) := by
  unfold bookSlotForSalonProgram
  apply keeps_ite <;> intro _
  · trivial
  apply keeps_reads
  intro view _
  apply keeps_readsOn
  split
  · trivial
  · trivial
  · simp only
    split
    · trivial
    · exact keeps_reads fun _ _ => trivial

theorem getBookedSlots_keeps (salonId : Nat) (slotDate : Text) :
    Keeps I ((Request.getBookedSlots salonId slotDate).executes P env s I)
      (getBookedSlotsProgram s salonId slotDate) := by
  apply keeps_reads
  intro view _
  split
  · trivial
  · exact keeps_reads fun _ _ => trivial

theorem paymentSuccess_keeps (form : PaymentForm) :
    Keeps I ((Request.paymentSuccess form).executes P env s I) (paymentSuccessProgram P s form) := by
  unfold paymentSuccessProgram
  split
  · trivial
  rename_i userId huserId
  apply keeps_ite <;> intro _
  · trivial
  apply keeps_ite <;> intro _
  · trivial
  split
  · trivial
  rename_i booking hbooking
  split
  · trivial
  rename_i username husername
  refine keeps_call ?_ (fun _ _ => keeps_call (by simp) (fun _ _ => trivial) fun _ => trivial)
    fun _ => trivial
  rintro _ _ ⟨⟩
  exact ⟨userId, username, booking, huserId, husername, hbooking, rfl⟩

theorem showSalons_keeps (search : Option Text) : Keeps I pre (showSalonsProgram P s search) := by
  apply keeps_reads
  intro view _
  split
  · trivial
  · exact keeps_readsOn trivial

/-- What a program writes is what its request may execute. -/
theorem program_keeps (P : Platform) (env : Env) (s : Session) (I : Db → Prop) (req : Request) :
    Keeps I (req.executes P env s I) (program P env s req) := by
  cases req with
  | loginPage form =>
    cases form with
    | none => trivial
    | some form => exact keeps_ite (fun _ => trivial) fun _ => keeps_answers
  | adminDashboard => exact keeps_ite (fun _ => keeps_readsOn trivial) fun _ => trivial
  | databaseViews => exact keeps_ite (fun _ => keeps_readsOn trivial) fun _ => trivial
  | deleteUser id => exact keeps_saves rfl
  | deleteSalon id => exact keeps_saves rfl
  | deleteService id => exact keeps_saves rfl
  | deleteBooking id => exact keeps_saves rfl
  | auth page action form => exact handleAuth_keeps action page form
  | forgotPassword page mobile =>
    cases page with
    | male => exact keeps_answers
    | female => exact keeps_ite (fun _ => trivial) fun _ => keeps_answers
  | resetPassword password => exact resetPassword_keeps password
  | registerSalon form => exact registerSalon_keeps form
  | showSalons search => exact showSalons_keeps search
  | recommend lat lon category => exact keeps_ite (fun _ => trivial) fun _ => keeps_answers
  | rateSalon salonId field => exact rateSalon_keeps salonId field
  | toggleVerify salonId passKey => exact toggleVerify_keeps salonId passKey
  | workerTogglePage salonId => exact keeps_ite (fun _ => trivial) fun _ => keeps_answers
  | verifyWorkerAccessPost salonId passKey =>
    exact keeps_ite (fun _ => trivial) fun _ => keeps_answers
  | verifyWorkerPage salonId passKey => exact keeps_answers
  | updateWorkerCount salonId field => exact updateWorkerCount_keeps salonId field
  | bookSlotForSalon salonId form => exact bookSlotForSalon_keeps salonId form
  | getBookedSlots salonId slotDate => exact getBookedSlots_keeps salonId slotDate
  | paymentSuccess form => exact paymentSuccess_keeps form
  | _ => trivial

theorem program_issues (P : Platform) (a : Incoming) : Keeps (fun _ => True)
    (fun w => a.request.issues a.cookie w) (program P a.env a.cookie a.request) :=
  (program_keeps P a.env a.cookie (fun _ => True) a.request).mono fun _ => issues_of_executes

end Keeping

section Closing
variable {P : Platform} {a : Incoming} {may : Command Write → Except Text Db → Prop} {env : Env}
  {s : Session} {k : Nat} {w : Write} {reply : Db → Outcome}

theorem busy_ne_conflict : "OperationalError".toList ≠ "IntegrityError".toList := by decide

theorem not_held_refused {r : Except Text Db} (hr : r = .error (site P).busy) :
    ¬ Holds (site P) False (.write k w) r := by
  rintro (hheld | ⟨d, hd⟩ | hconflict)
  · exact hheld
  · cases hr.symm.trans hd
  · exact busy_ne_conflict (Except.error.inj (hr.symm.trans hconflict))

/-- A write that no constraint stops, with its commit. -/
theorem closes_saves (hmay : Granting (site P) may) (hw : w.checked = false) :
    Closes (site P) may a False (saves s k w (.done reply)) := by
  intro r hr
  cases r with
  | ok d =>
    intro r' hr'
    cases r' with
    | ok d' => rintro ⟨-, ⟨⟩⟩
    | error e => exact absurd hr' (hmay.commits hr)
  | error e =>
    intro hheld
    cases hmay.possible hr with
    | violates hexec => exact absurd hexec (exec_unchecked hw _)
    | refused => exact absurd hheld (not_held_refused rfl)

/-- The violation of a constraint is caught, and the connection closed. -/
theorem closes_insertUser (hmay : Granting (site P) may) (page : GenderPage) (user : User) :
    Closes (site P) may a False (insertUserProgram s page user) := by
  intro r hr
  cases r with
  | ok d =>
    intro r' hr'
    cases r' with
    | ok d' => rintro ⟨-, ⟨⟩⟩
    | error e => exact absurd hr' (hmay.commits hr)
  | error e =>
    change Closes (site P) may a _ (if e = "IntegrityError".toList then _ else _)
    cases hmay.possible hr with
    | violates hexec =>
      have hconflict : (site P).conflict = "IntegrityError".toList := rfl
      rw [if_pos hconflict]
      exact fun _ => by simp [site, redirectTo, Body.failed]
    | refused =>
      have hbusy : (site P).busy ≠ "IntegrityError".toList := busy_ne_conflict
      rw [if_neg hbusy]
      exact fun hheld => absurd hheld (not_held_refused rfl)

theorem closes_done {reply : Db → Outcome} : Closes (site P) may a False (.done reply) := False.elim

theorem closes_answers {reply : Db → Outcome} :
    Closes (site P) may a False (answers s reply) := by
  intro r _
  cases r <;> exact False.elim

theorem closes_ite {p q : Program} {b : Prop} [Decidable b] (hp : Closes (site P) may a False p)
    (hq : Closes (site P) may a False q) : Closes (site P) may a False (if b then p else q) := by
  split
  · exact hp
  · exact hq

/-- A request that ends with its connection open holds no lock, unless its commit was refused. -/
theorem program_closes (hmay : Granting (site P) may) (a : Incoming) :
    Closes (site P) may a False ((site P).program a) := by
  have hopen : a.request.closesLast = false → Closes (site P) may a False ((site P).program a) :=
    fun hlast => closes_always fun x => by simp [site, hlast]
  obtain ⟨browser, s, env, req⟩ := a
  cases req with
  | deleteUser id => exact closes_saves hmay rfl
  | deleteSalon id => exact closes_saves hmay rfl
  | deleteService id => exact closes_saves hmay rfl
  | deleteBooking id => exact closes_saves hmay rfl
  | auth page action form =>
    change Closes _ _ _ _ (handleAuthProgram P env s action page form)
    unfold handleAuthProgram
    apply closes_ite closes_done
    apply closes_ite closes_done
    apply closes_ite (closes_insertUser hmay _ _)
    exact closes_ite (closes_ite closes_done closes_answers) closes_done
  | resetPassword password =>
    change Closes _ _ _ _ (resetPasswordProgram P env s password)
    unfold resetPasswordProgram
    apply closes_ite closes_done
    split
    · exact closes_done
    · exact closes_done
    split
    · exact closes_done
    · exact closes_saves hmay rfl
  | _ => exact hopen rfl

end Closing

section Standing
variable {s : Session} {k : Nat} {w : Write} {reply : Db → Outcome} {next : Db → Program}
  {l : List (Command Write × Except Text Db)} {q : Program}

/-- Where a program that begins with a SELECT can stand after the calls `l`. -/
inductive Reading (s : Session) (next : Db → Program) :
    List (Command Write × Except Text Db) → Program → Prop where
  | starts : Reading s next [] (reads s next)
  | refused (e : Text) : Reading s next [(.read, .error e)] (.done fun db => raise db s e)
  | read (view : Db) {l : List (Command Write × Except Text Db)} {q : Program}
      (h : (next view).Follows l q) : Reading s next ((.read, .ok view) :: l) q

theorem reads_follows (h : (reads s next).Follows l q) : Reading s next l q := by
  rcases Prog.follows_call.mp h with ⟨rfl, rfl⟩ | ⟨r, l', rfl, h'⟩
  · exact .starts
  · cases r with
    | ok view => exact .read view h'
    | error e =>
      obtain ⟨rfl, rfl⟩ := Prog.follows_done.mp h'
      exact .refused e

/-- Where a write with its commit can stand after the calls `l`. -/
inductive Saving (s : Session) (k : Nat) (w : Write) (reply : Db → Outcome) :
    List (Command Write × Except Text Db) → Program → Prop where
  | starts : Saving s k w reply [] (saves s k w (.done reply))
  | unwritten (e : Text) :
      Saving s k w reply [(.write k w, .error e)] (.done fun db => raise db s e)
  | wrote (d : Db) : Saving s k w reply [(.write k w, .ok d)] (commits s k (.done reply))
  | uncommitted (d : Db) (e : Text) : Saving s k w reply
      [(.write k w, .ok d), (.commit k, .error e)] (.done fun db => raise db s e)
  | saved (d d' : Db) :
      Saving s k w reply [(.write k w, .ok d), (.commit k, .ok d')] (.done reply)

theorem saves_follows (h : (saves s k w (.done reply)).Follows l q) : Saving s k w reply l q := by
  rcases Prog.follows_call.mp h with ⟨rfl, rfl⟩ | ⟨r, l', rfl, h'⟩
  · exact .starts
  cases r with
  | error e =>
    obtain ⟨rfl, rfl⟩ := Prog.follows_done.mp h'
    exact .unwritten e
  | ok d =>
    rcases Prog.follows_call.mp h' with ⟨rfl, rfl⟩ | ⟨r', l'', rfl, h''⟩
    · exact .wrote d
    cases r' with
    | error e =>
      obtain ⟨rfl, rfl⟩ := Prog.follows_done.mp h''
      exact .uncommitted d e
    | ok d' =>
      obtain ⟨rfl, rfl⟩ := Prog.follows_done.mp h''
      exact .saved d d'

def isCommit (x : Command Write × Except Text Db) : Bool :=
  match x with
  | (.commit _, .ok _) => true
  | _ => false

end Standing

end Gloora
