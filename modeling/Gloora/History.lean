import Gloora.BookingSpec
import Gloora.Statements

/-!
# What a run records

`Event.booked?` and `Event.paid?` read off an event which pending booking it stored and
which paid row it inserted. `Recorded` ties every cookie and every row of `slot_data` to
these events and holds after every run.
-/

namespace Gloora
set_option autoImplicit false

open PyText Keyed Runs

namespace Event

def bookForm? (e : Event) : Option BookForm :=
  match e.request with
  | .bookSlotForSalon _ form => form
  | _ => none

def paymentForm? (e : Event) : Option PaymentForm :=
  match e.request with
  | .paymentSuccess form => some form
  | _ => none

/-- The pending booking a POST /book-slot stored. -/
def booked? (e : Event) : Option PendingBooking :=
  match e.request with
  | .bookSlotForSalon salonId (some _) =>
    if e.outcome.body = .redirect "payment".toList (some salonId) then
      e.outcome.session.pendingBooking
    else none
  | _ => none

/-- The row a POST /payment-success inserted: the one under a new key. -/
def paid? (e : Event) : Option Slot :=
  match e.request with
  | .paymentSuccess _ => e.outcome.db.slots.find? (e.before.slots.seq + 1)
  | _ => none

def order? (e : Event) : Option Order :=
  match e.request with
  | .payment _ => e.outcome.order
  | _ => none

/-- A logout, or a login that succeeded: the session starts anew. -/
def restarts (e : Event) : Bool :=
  match e.request with
  | .logout | .adminLogout => true
  | req => req.asksLogin && (e.outcome.body == .redirect "help_page".toList none ||
      e.outcome.body == .redirect "admin_dashboard".toList none)

end Event

section Steps
variable {P : Platform} {σ σ' : Sys} {e : Event} {booking : PendingBooking} {row : Slot}

theorem Step.effect (h : Step P σ e σ') :
    Effect P e.env e.before e.cookie e.request e.outcome := by
  rw [h.served]
  exact handle_effect _ _ _ _ _

theorem Step.booked (h : Step P σ e σ') (hbooked : e.booked? = some booking) :
    ∃ salonId form salon, e.request = .bookSlotForSalon salonId (some form) ∧
      Books e.env e.before e.cookie salonId form salon booking ∧
      e.outcome.session = { e.cookie with pendingBooking := some booking } ∧
      e.outcome.db = e.before := by
  unfold Event.booked? at hbooked
  split at hbooked
  · rename_i salonId form hreq
    split at hbooked
    · rename_i hbody
      have hserved := h.served
      rw [hreq, handle] at hserved
      rw [hserved] at hbody hbooked ⊢
      obtain ⟨hdb, ⟨salon, booking', hbooks, hsession, -⟩ | ⟨-, hne⟩⟩ :=
        bookSlotForSalon_cases e.env e.before e.cookie salonId form
      · rw [hsession] at hbooked
        obtain rfl : booking' = booking := Option.some.inj hbooked
        exact ⟨salonId, form, salon, hreq, hbooks, hsession, hdb⟩
      · exact absurd hbody hne
    · cases hbooked
  · cases hbooked

theorem Books.salonId_eq {env : Env} {db : Db} {s : Session} {salonId : Nat} {form : BookForm}
    {salon : Salon} (h : Books env db s salonId form salon booking) :
    booking.salonId = salonId := by
  obtain ⟨date, t, m, haccepted⟩ := checkBooking_ok.mp h.checked
  rw [haccepted.booking]

theorem find?_inserted {t : Table Slot} : (t.insert row).find? (t.seq + 1) = some row :=
  Table.find?_eq_some.mpr (Table.mem_insert.mpr (.inr ⟨rfl, rfl⟩))

theorem find?_fresh {t : Table Slot} : t.find? (t.seq + 1) = none :=
  Table.find?_eq_none.mpr (Table.not_hasKey_of_lt (Nat.lt_succ_self _))

theorem Pays.slots {env : Env} {db db' : Db} {s : Session} {form : PaymentForm} {userId : Nat}
    {username : Text} (h : Pays P env db s form userId username booking db') :
    db.refersTo (paidRow userId username booking) = true ∧
      db' = { db with slots := db.slots.insert (paidRow userId username booking) } :=
  exec_insertSlot.mp (Env.execute_ok.mp h.executed).2

theorem Step.paid (h : Step P σ e σ') (hpaid : e.paid? = some row) :
    ∃ form userId username booking, e.request = .paymentSuccess form ∧
      Pays P e.env e.before e.cookie form userId username booking e.outcome.db ∧
      row = paidRow userId username booking ∧
      e.outcome.session = { e.cookie with pendingBooking := none } := by
  unfold Event.paid? at hpaid
  split at hpaid
  · rename_i form hreq
    have hserved := h.served
    rw [hreq, handle] at hserved
    rw [hserved] at hpaid ⊢
    rcases paymentSuccess_cases P e.env e.before e.cookie form with
      ⟨userId, username, booking, hpays, hsession⟩ | ⟨hdb, -⟩
    · rw [hpays.slots.2, find?_inserted] at hpaid
      exact ⟨form, userId, username, booking, hreq, hpays, (Option.some.inj hpaid).symm, hsession⟩
    · rw [hdb, find?_fresh] at hpaid
      cases hpaid
  · cases hpaid

theorem Event.paid?_of_pays {form : PaymentForm} {userId : Nat} {username : Text}
    (hreq : e.request = .paymentSuccess form)
    (h : Pays P e.env e.before e.cookie form userId username booking e.outcome.db) :
    e.paid? = some (paidRow userId username booking) := by
  unfold Event.paid?
  rw [hreq, h.slots.2]
  exact find?_inserted

/-- Only an event with `paid?` adds a row to `slot_data`. -/
theorem Step.slots_unpaid (h : Step P σ e σ') (hpaid : e.paid? = none) :
    σ'.db.slots.rows.Sublist σ.db.slots.rows := by
  rw [h.db, ← h.before]
  by_cases hreq : ∃ form, e.request = .paymentSuccess form
  · obtain ⟨form, hreq⟩ := hreq
    have hserved := h.served
    rw [hreq, handle] at hserved
    rcases paymentSuccess_cases P e.env e.before e.cookie form with
      ⟨userId, username, booking, hpays, -⟩ | ⟨hdb, -⟩
    · rw [← hserved] at hpays
      rw [Event.paid?_of_pays hreq hpays] at hpaid
      cases hpaid
    · rw [hserved, hdb]
  · obtain ⟨ws, hws, hissues⟩ := h.effect.writes
    apply hws.preserved (fun db => db.slots.rows.Sublist e.before.slots.rows) (.refl _)
    intro a b w hw ha hexec
    refine (exec_slots hexec ?_).trans ha
    rintro r rfl
    have hissue := hissues _ hw
    unfold Request.issues at hissue
    split at hissue
    all_goals first | exact hreq ⟨_, by assumption⟩ | simp at hissue

theorem Step.slots_paid (h : Step P σ e σ') (hpaid : e.paid? = some row) :
    σ'.db.slots = σ.db.slots.insert row := by
  obtain ⟨form, userId, username, booking, -, hpays, rfl, -⟩ := h.paid hpaid
  rw [h.db, hpays.slots.2, h.before]

theorem Step.users (h : Step P σ e σ') : UsersEvolve e.before σ'.db := by
  obtain ⟨ws, hws, -⟩ := h.effect.writes
  rw [h.db]
  exact writes_users hws

/-- How an event leaves the session it was presented with. -/
theorem Step.session_cases (h : Step P σ e σ') :
    (∃ booking, e.booked? = some booking ∧
      e.outcome.session = { e.cookie with pendingBooking := some booking }) ∨
    (e.paid?.isSome ∧ e.outcome.session = { e.cookie with pendingBooking := none }) ∨
    (e.restarts = true ∧ e.outcome.session.pendingBooking = none) ∨
    (e.booked? = none ∧ e.paid? = none ∧ SameCore e.cookie e.outcome.session) := by
  cases h.effect.session with
  | kept hcore =>
    cases hbooked : e.booked? with
    | some booking =>
      obtain ⟨_, _, _, -, -, hsession, -⟩ := h.booked hbooked
      exact .inl ⟨booking, rfl, hsession⟩
    | none =>
      cases hpaid : e.paid? with
      | some row =>
        obtain ⟨_, _, _, _, -, -, -, hsession⟩ := h.paid hpaid
        exact .inr (.inl ⟨rfl, hsession⟩)
      | none => exact .inr (.inr (.inr ⟨rfl, rfl, hcore⟩))
  | cleared hsession hreq =>
    refine .inr (.inr (.inl ⟨?_, by rw [hsession]⟩))
    rcases hreq with hreq | hreq <;> simp [Event.restarts, hreq]
  | adminLogin hsession hreq hbody =>
    refine .inr (.inr (.inl ⟨?_, by rw [hsession]; rfl⟩))
    unfold Event.restarts
    split <;> simp [*]
  | userLogin id u hsession hrow hreq hbody =>
    refine .inr (.inr (.inl ⟨?_, by rw [hsession]; rfl⟩))
    unfold Event.restarts
    split <;> simp [*]
  | booked salonId form salon booking hreq hbooks hdb hsession hbody =>
    exact .inl ⟨booking, by simp [Event.booked?, hreq, hbody, hsession], hsession⟩
  | paid form userId username booking hreq hpays hsession =>
    exact .inr (.inl ⟨by rw [Event.paid?_of_pays hreq hpays]; rfl, hsession⟩)

/-- What holds of a fresh session and of the browser's cookies holds of the one presented. -/
theorem Step.presented_keeps (h : Step P σ e σ') (I : Session → Prop) (fresh : I {})
    (jar : ∀ c ∈ σ.jar e.browser, I c) : I e.cookie := by
  rcases h.presented with hempty | hjar
  · exact hempty ▸ fresh
  · exact jar _ hjar

theorem mem_jar {b : Nat} {c : Session} (h : Step P σ e σ') :
    c ∈ σ'.jar b ↔ (b = e.browser ∧ c = e.outcome.session) ∨ c ∈ σ.jar b := by
  rw [h.jar]
  by_cases hb : b = e.browser
  · subst hb
    simp
  · simp [hb]

theorem cookie_after (h : Step P σ e σ') : σ'.cookie e.browser = e.outcome.session := by
  simp [Sys.cookie, h.jar]

theorem cookie_other {b : Nat} (h : Step P σ e σ') (hb : b ≠ e.browser) :
    σ'.cookie b = σ.cookie b := by
  simp [Sys.cookie, h.jar, Function.update_of_ne hb]

end Steps

/-- The keys of a login are all there, without the admin flag, or none of them is. -/
def Session.Whole (c : Session) : Prop :=
  (c.username = none ∧ c.email = none ∧ c.userId = none) ∨
    (c.admin = false ∧ c.username.isSome ∧ c.email.isSome ∧ c.userId.isSome)

def Stored (evs : List Event) (booking : PendingBooking) : Prop :=
  ∃ e ∈ evs, e.booked? = some booking

theorem booked_mem {P : Platform} {evs : List Event} {σ : Sys} {e : Event}
    {booking : PendingBooking} (h : Run (Step P) Sys.init evs σ) (he : e ∈ evs)
    (hbooked : e.booked? = some booking) : ∃ salonId form salon,
      e.request = .bookSlotForSalon salonId (some form) ∧
      Books e.env e.before e.cookie salonId form salon booking := by
  obtain ⟨_, _, _, _, -, -, hstep, -⟩ := h.at_mem he
  obtain ⟨salonId, form, salon, hreq, hbooks, -⟩ := hstep.booked hbooked
  exact ⟨salonId, form, salon, hreq, hbooks⟩

theorem Stored.books {P : Platform} {evs : List Event} {σ : Sys} {booking : PendingBooking}
    (hrun : Run (Step P) Sys.init evs σ) (h : Stored evs booking) :
    ∃ env db s salonId form salon, Books env db s salonId form salon booking := by
  obtain ⟨e, he, hbooked⟩ := h
  obtain ⟨salonId, form, salon, -, hbooks⟩ := booked_mem hrun he hbooked
  exact ⟨_, _, _, salonId, form, salon, hbooks⟩

def Requested (evs : List Event) (userId : Nat) (booking : PendingBooking) : Prop :=
  ∃ e ∈ evs, e.booked? = some booking ∧ e.cookie.userId = some userId

theorem Requested.stored {evs : List Event} {userId : Nat} {booking : PendingBooking}
    (h : Requested evs userId booking) : Stored evs booking :=
  h.imp fun _ he => ⟨he.1, he.2.1⟩

theorem Requested.snoc {evs : List Event} {e : Event} {userId : Nat} {booking : PendingBooking}
    (h : Requested evs userId booking) : Requested (evs ++ [e]) userId booking :=
  h.imp fun _ he => ⟨List.mem_append_left _ he.1, he.2⟩

/-- What holds of a cookie issued during the run `evs`. -/
structure Issued (evs : List Event) (db : Db) (c : Session) : Prop where
  whole : c.Whole
  pending : ∀ booking, c.pendingBooking = some booking →
    ∃ id, c.userId = some id ∧ Requested evs id booking
  known : ∀ id, c.userId = some id → id ≤ db.users.seq
  named : ∀ id name, c.userId = some id → c.username = some name →
    ∀ u, (id, u) ∈ db.users.rows → u.username = name

theorem issued_empty (evs : List Event) (db : Db) : Issued evs db {} where
  whole := .inl ⟨rfl, rfl, rfl⟩
  pending := by simp
  known := by simp
  named := by simp

section Issued
variable {evs : List Event} {db db' : Db} {c c' : Session} {e : Event}

/-- A cookie issued earlier stays good: its user keeps the name, and no one else gets the id. -/
theorem Issued.later (h : Issued evs db c) (husers : UsersEvolve db db') :
    Issued (evs ++ [e]) db' c where
  whole := h.whole
  pending := fun booking hb => (h.pending booking hb).imp fun _ hid => ⟨hid.1, hid.2.snoc⟩
  known := fun id hid => Nat.le_trans (h.known id hid) husers.seq
  named := by
    intro id name hid hname u hu
    obtain ⟨v, hv, hsame, -⟩ := husers.rows id u hu (h.known id hid)
    exact hsame.symm.trans (h.named id name hid hname v hv)

theorem Issued.sameCore (h : Issued evs db c) (hcore : SameCore c c') : Issued evs db c' where
  whole := by
    unfold Session.Whole
    rw [hcore.admin, hcore.username, hcore.email, hcore.userId]
    exact h.whole
  pending := by
    rw [hcore.pendingBooking, hcore.userId]
    exact h.pending
  known := by
    rw [hcore.userId]
    exact h.known
  named := by
    rw [hcore.userId, hcore.username]
    exact h.named

end Issued

structure Recorded (evs : List Event) (σ : Sys) : Prop where
  cookies : ∀ b, ∀ c ∈ σ.jar b, Issued evs σ.db c
  past : ∀ e ∈ evs, UsersEvolve e.before σ.db
  known : ∀ e ∈ evs, ∀ id, e.cookie.userId = some id → id ≤ e.before.users.seq
  owned : Owned σ.db
  rows : ∀ id r, (id, r) ∈ σ.db.slots.rows → ∃ booking,
    Requested evs r.userId booking ∧ r = paidRow r.userId r.username booking

section Runs
variable {P : Platform} {σ σ' : Sys} {evs : List Event} {e : Event}

theorem recorded_init : Recorded [] Sys.init where
  cookies := by simp [Sys.init]
  past := by simp
  known := by simp
  owned := by
    intro id r hr
    simp [Sys.init, initAllDatabases] at hr
  rows := by
    intro id r hr
    simp [Sys.init, initAllDatabases] at hr

/-- The presented cookie is as good as any other. -/
theorem Recorded.presented (h : Recorded evs σ) (hstep : Step P σ e σ') :
    Issued evs σ.db e.cookie :=
  hstep.presented_keeps _ (issued_empty _ _) (h.cookies _)

theorem issued_session (h : Issued evs σ.db e.cookie) (hstep : Step P σ e σ') :
    Issued (evs ++ [e]) σ'.db e.outcome.session := by
  have husers : UsersEvolve σ.db σ'.db := hstep.before ▸ hstep.users
  have hlater : Issued (evs ++ [e]) σ'.db e.cookie := h.later husers
  cases hstep.effect.session with
  | kept hcore => exact hlater.sameCore hcore
  | cleared hsession =>
    rw [hsession]
    exact issued_empty _ _
  | adminLogin hsession =>
    rw [hsession]
    exact ⟨.inl ⟨rfl, rfl, rfl⟩, by simp [adminSession], by simp [adminSession],
      by simp [adminSession]⟩
  | userLogin id u hsession hrow =>
    rw [hstep.before] at hrow
    rw [hsession]
    refine ⟨.inr ⟨rfl, rfl, rfl, rfl⟩, by simp [userSession], ?_, ?_⟩
    · rintro _ ⟨⟩
      exact Nat.le_trans (Table.le_seq hrow) husers.seq
    · rintro _ _ ⟨⟩ ⟨⟩ v hv
      obtain ⟨w, hw, hname, -⟩ := husers.rows id v hv (Table.le_seq hrow)
      rw [← hname, Table.mem_unique hw hrow]
  | booked salonId form salon booking hreq hbooks hdb hsession hbody =>
    have hbooked : e.booked? = some booking := by
      simp [Event.booked?, hreq, hbody, hsession]
    rw [hsession]
    refine ⟨hlater.whole, ?_, hlater.known, hlater.named⟩
    rintro _ ⟨⟩
    obtain ⟨id, hid⟩ := Option.isSome_iff_exists.mp hbooks.userId
    exact ⟨id, hid, e, by simp, hbooked, hid⟩
  | paid form userId username booking hreq hpays hsession =>
    rw [hsession]
    exact ⟨hlater.whole, by simp, hlater.known, hlater.named⟩

theorem owned_step (h : Recorded evs σ) (hstep : Step P σ e σ') : Owned σ'.db := by
  obtain ⟨ws, hws, hissues⟩ := hstep.effect.writes
  have hcookie := h.presented hstep
  have hkeep : Owned σ'.db ∧ UsersEvolve σ.db σ'.db := by
    rw [hstep.db]
    refine hws.preserved (fun db => Owned db ∧ UsersEvolve σ.db db) ?_ ?_
    · exact hstep.before.symm ▸ ⟨h.owned, .of_eq rfl⟩
    intro a b w hw ha hexec
    obtain ⟨howned, husers⟩ := ha
    refine ⟨exec_owned hexec howned ?_, husers.trans (exec_users hexec)⟩
    rintro r rfl u hu
    have hissue := hissues _ hw
    unfold Request.issues at hissue
    split at hissue
    all_goals try simp at hissue
    obtain ⟨userId, huserId, username, husername, booking, -, rfl⟩ := hissue
    obtain ⟨v, hv, hname, -⟩ := husers.rows _ u hu (hcookie.known _ huserId)
    exact hname.symm.trans (hcookie.named _ _ huserId husername v hv)
  exact hkeep.1

theorem recorded_step (h : Recorded evs σ) (hstep : Step P σ e σ') :
    Recorded (evs ++ [e]) σ' := by
  have husers : UsersEvolve σ.db σ'.db := hstep.before ▸ hstep.users
  have hcookie := h.presented hstep
  refine ⟨?_, ?_, ?_, owned_step h hstep, ?_⟩
  · intro b c hc
    rcases (mem_jar hstep).mp hc with ⟨-, rfl⟩ | hold
    · exact issued_session hcookie hstep
    · exact (h.cookies b c hold).later husers
  · intro f hf
    rcases List.mem_append.mp hf with hold | hnew
    · exact (h.past f hold).trans husers
    · obtain rfl := List.mem_singleton.mp hnew
      exact hstep.users
  · intro f hf id hid
    rcases List.mem_append.mp hf with hold | hnew
    · exact h.known f hold id hid
    · obtain rfl := List.mem_singleton.mp hnew
      rw [hstep.before]
      exact hcookie.known id hid
  · intro id r hr
    have hold : (id, r) ∈ σ.db.slots.rows → ∃ booking, Requested (evs ++ [e]) r.userId booking ∧
        r = paidRow r.userId r.username booking := by
      intro hr
      exact (h.rows id r hr).imp fun _ hb => ⟨hb.1.snoc, hb.2⟩
    cases hpaid : e.paid? with
    | none => exact hold ((hstep.slots_unpaid hpaid).subset hr)
    | some row =>
      rw [hstep.slots_paid hpaid] at hr
      rcases Table.mem_insert.mp hr with hr | ⟨-, rfl⟩
      · exact hold hr
      · obtain ⟨form, userId, username, booking, -, hpays, rfl, -⟩ := hstep.paid hpaid
        obtain ⟨id', hid', hrequested⟩ := hcookie.pending booking hpays.pending
        obtain rfl : id' = userId := Option.some.inj (hid'.symm.trans hpays.user)
        exact ⟨booking, hrequested.snoc, rfl⟩

theorem recorded (h : Run (Step P) Sys.init evs σ) : Recorded evs σ :=
  h.history Recorded recorded_init fun _ _ _ _ _ hrec hstep => recorded_step hrec hstep

/-- The request behind a row of `slot_data`. -/
theorem row_requested {id : Nat} {r : Slot} (h : Run (Step P) Sys.init evs σ)
    (hr : (id, r) ∈ σ.db.slots.rows) : ∃ e ∈ evs, ∃ form salon booking,
      e.request = .bookSlotForSalon r.salonId (some form) ∧ e.booked? = some booking ∧
      Books e.env e.before e.cookie r.salonId form salon booking ∧
      e.cookie.userId = some r.userId ∧ r = paidRow r.userId r.username booking := by
  obtain ⟨booking, ⟨e, he, hbooked, hid⟩, hrow⟩ := (recorded h).rows id r hr
  obtain ⟨salonId, form, salon, hreq, hbooks⟩ := booked_mem h he hbooked
  have hsame : salonId = r.salonId := by
    rw [hrow]
    exact hbooks.salonId_eq.symm
  subst hsame
  exact ⟨e, he, form, salon, booking, hreq, hbooked, hbooks, hid, hrow⟩

end Runs

end Gloora
