import Gloora.Recording
import Gloora.Play

/-!
# What a payment pays for

A browser has one pending booking at a time. POST /book-slot overwrites it, a payment uses
it up, and nothing else ties an order of the gateway to a row of `slot_data`. The results
are about one browser that presents its current cookie, whatever the others do.
-/

namespace Gloora
set_option autoImplicit false

open PyText Keyed Runs

namespace Event

/-- POST /payment-success with some payment of `order`, signed by the gateway. -/
def Submits (P : Platform) (e : Event) (order : Order) : Prop :=
  ∃ paymentId, paymentId ≠ [] ∧ e.request = .paymentSuccess
    { paymentId := some paymentId
      orderId := some order.id
      signature := some (P.hmacSha256 (order.id ++ '|' :: paymentId)) }

end Event

theorem Books.platformFee {env : Env} {db : Db} {s : Session} {salonId : Nat} {form : BookForm}
    {salon : Salon} {booking : PendingBooking} (h : Books env db s salonId form salon booking) :
    booking.platformFee = booking.selectedServices.length * 10 := by
  obtain ⟨date, t, m, haccepted⟩ := checkBooking_ok.mp h.checked
  rw [haccepted.booking]

theorem Step.order {P : Platform} {σ σ' : Sys} {e : Event} {order : Order} (h : Step P σ e σ')
    (horder : e.order? = some order) : ∃ booking, e.cookie.pendingBooking = some booking ∧
      order.amount = booking.platformFee * 100 ∧ e.outcome.session = e.cookie := by
  unfold Event.order? at horder
  split at horder
  · rename_i salonId hreq
    have hserved := h.served
    rw [hreq, handle] at hserved
    rw [hserved] at horder ⊢
    unfold payment at horder ⊢
    split at horder
    · split at horder
      · cases horder
      rename_i booking hpending
      simp only at horder
      split at horder
      · cases horder
      rename_i id hid
      obtain rfl := Option.some.inj horder
      exact ⟨booking, hpending, rfl, by simp [*]⟩
    · cases horder
  · cases horder

section Browser
variable {P : Platform} {b : Nat} {σ σ' : Sys} {e g : Event} {evs pre mid post : List Event}
  {row : Slot} {order : Order} {booking : PendingBooking}

theorem CurrentStep.step (h : CurrentStep P b σ e σ') : Step P σ e σ' := h.1

/-- The browser's cookie changes by its own requests alone. -/
theorem CurrentStep.cookie_cases (h : CurrentStep P b σ e σ') :
    (e.browser = b ∧ e.cookie = σ.cookie b ∧ σ'.cookie b = e.outcome.session) ∨
    (e.browser ≠ b ∧ σ'.cookie b = σ.cookie b) := by
  by_cases hb : e.browser = b
  · subst hb
    exact .inl ⟨rfl, h.2 rfl, cookie_after h.1⟩
  · exact .inr ⟨hb, cookie_other h.1 (Ne.symm hb)⟩

theorem pending_kept (h : Run (CurrentStep P b) σ evs σ')
    (hkeep : ∀ x ∈ evs, x.browser = b → x.booked? = none) :
    (σ'.cookie b).pendingBooking = (σ.cookie b).pendingBooking ∨
      (σ'.cookie b).pendingBooking = none := by
  refine h.preserved (fun τ => (τ.cookie b).pendingBooking = (σ.cookie b).pendingBooking ∨
    (τ.cookie b).pendingBooking = none) (.inl rfl) ?_
  intro τ x τ' hx hτ hstep
  rcases hstep.cookie_cases with ⟨hb, hcookie, hafter⟩ | ⟨-, hafter⟩
  · rw [hafter]
    rcases hstep.step.session_cases with ⟨_, hbooked, -⟩ | ⟨-, hsession⟩ | ⟨-, hnone⟩ | ⟨-, -, hcore⟩
    · rw [hkeep x hx hb] at hbooked
      cases hbooked
    · rw [hsession]
      exact .inr rfl
    · exact .inr hnone
    · rwa [hcore.pendingBooking, hcookie]
  · rwa [hafter]

/-- Without a booking, a payment, a logout or a login the core of the session stays. -/
theorem session_kept (h : Run (CurrentStep P b) σ evs σ')
    (hkeep : ∀ x ∈ evs, x.browser = b → x.booked? = none ∧ x.paid? = none ∧ x.restarts = false) :
    SameCore (σ.cookie b) (σ'.cookie b) := by
  apply h.preserved (fun τ => SameCore (σ.cookie b) (τ.cookie b)) (.refl _)
  intro τ x τ' hx hτ hstep
  rcases hstep.cookie_cases with ⟨hb, hcookie, hafter⟩ | ⟨-, hafter⟩
  · obtain ⟨hbooked, hpaid, hrestarts⟩ := hkeep x hx hb
    rw [hafter]
    rcases hstep.step.session_cases with ⟨_, hbooked', -⟩ | ⟨hpaid', -⟩ | ⟨hrestarts', -⟩ |
      ⟨-, -, hcore⟩
    · rw [hbooked] at hbooked'
      cases hbooked'
    · rw [hpaid] at hpaid'
      cases hpaid'
    · rw [hrestarts] at hrestarts'
      cases hrestarts'
    · exact hτ.trans (hcookie ▸ hcore)
  · rwa [hafter]

theorem step_run (h : Run (CurrentStep P b) σ evs σ') : Run (Step P) σ evs σ' :=
  h.mono fun _ _ _ hstep => hstep.1

/-- An order created since the browser last stored a booking is the order of the row. -/
theorem order_of_paid_row
    (h : Run (CurrentStep P b) Sys.init (pre ++ g :: (mid ++ e :: post)) σ)
    (hg : g.browser = b) (he : e.browser = b) (horder : g.order? = some order)
    (hpaid : e.paid? = some row) (hkeep : ∀ x ∈ mid, x.browser = b → x.booked? = none) :
    ∃ userId username booking, row = paidRow userId username booking ∧
      g.cookie.pendingBooking = some booking ∧
      order.amount = 1000 * booking.selectedServices.length := by
  obtain ⟨t, t', hpre, hcreate, hrest⟩ := h.at_event
  obtain ⟨u, u', hmid, hstep, -⟩ := hrest.at_event
  obtain ⟨booking, hpending, hamount, hsession⟩ := hcreate.step.order horder
  obtain ⟨form, userId, username, booking', -, hpays, rfl, -⟩ := hstep.step.paid hpaid
  have hsame : booking' = booking := by
    have hpending' := hpays.pending
    rw [hstep.2 he] at hpending'
    rcases pending_kept hmid hkeep with hkept | hnone
    · rw [hkept, ← hg, cookie_after hcreate.step, hsession, hpending] at hpending'
      exact (Option.some.inj hpending').symm
    · rw [hnone] at hpending'
      cases hpending'
  subst hsame
  refine ⟨userId, username, booking', rfl, hpending, ?_⟩
  have hrec := recorded (step_run hpre)
  obtain ⟨id, -, hrequested⟩ := (hrec.presented hcreate.step).pending booking' hpending
  obtain ⟨_, _, _, _, _, _, hbooks⟩ := hrequested.stored.books (step_run hpre)
  rw [hamount, hbooks.platformFee]
  omega

def sideBySide : Checkout where
  before := firstBooking "2"
  order := opensPayment 1 "o1"
  between := [sends 2 (book 1 "2030-01-01" "10:00" ["2"] "50"), opensPayment 2 "o2",
    sends 2 (payFor "o2")]
  payment := sends 1 (payFor "o1")
  served := by decide +kernel

theorem order_of_paid_row_visit : ∃ booking,
    sideBySide.ordered.cookie.pendingBooking = some booking ∧
      1000 = 1000 * booking.selectedServices.length := by
  have hpaid : sideBySide.paying.paid?.isSome := by decide +kernel
  obtain ⟨row, hrow⟩ := Option.isSome_iff_exists.mp hpaid
  have horder : sideBySide.ordered.order? = some ⟨"o1".toList, 1000⟩ := by decide +kernel
  obtain ⟨_, _, booking, -, hpending, hamount⟩ :=
    order_of_paid_row (sideBySide.run 1) rfl rfl horder hrow (by decide +kernel)
  exact ⟨booking, hpending, hamount⟩

/-- The order of an inserting payment was created for the booking that is inserted. -/
def PaidForOwnOrder (pre : List Event) (e : Event) : Prop :=
  e.paid?.isSome → ∃ g ∈ pre, ∃ order ∈ g.order?, e.paymentForm?.bind PaymentForm.orderId =
    some order.id ∧ g.cookie.pendingBooking = e.cookie.pendingBooking ∧
    ∀ booking ∈ e.cookie.pendingBooking,
      order.amount = 1000 * booking.selectedServices.length

instance (pre : List Event) (e : Event) : Decidable (PaidForOwnOrder pre e) := by
  unfold PaidForOwnOrder
  infer_instance

/-- Two services booked in a second tab while the first tab is paying for one. -/
def overwritten : Checkout where
  before := firstBooking "1"
  order := opensPayment 1 "o1"
  between := [sends 1 (book 1 "2030-01-01" "12:00" ["1", "2"] "150")]
  payment := sends 1 (payFor "o1")
  served := by decide +kernel

theorem row_paid_with_other_order : ¬ ∀ (P : Platform) (b : Nat) (evs : List Event) (σ : Sys),
    Run (CurrentStep P b) Sys.init evs σ → (evs.filterMap Event.paymentForm?).Nodup →
      Throughout PaidForOwnOrder evs := by
  intro h
  have hown := h plain 1 _ _ (overwritten.run 1) (by decide +kernel)
  exact absurd hown (by decide +kernel)

/-- The row of a booking is in the table, paid. -/
def Honoured (db : Db) (booking : PendingBooking) : Prop :=
  ∃ r ∈ db.slots.rows, r.2.salonId = booking.salonId ∧ r.2.slotDate = booking.slotDate ∧
    r.2.slotTime = some booking.slotTime ∧
    r.2.selectedServices = joinComma booking.selectedServices ∧
    r.2.paymentStatus = "paid".toList

instance (db : Db) (booking : PendingBooking) : Decidable (Honoured db booking) := by
  unfold Honoured
  infer_instance

theorem verifies_signed (P : Platform) (orderId paymentId : Text) :
    P.verifyPaymentSignature orderId paymentId (P.hmacSha256 (orderId ++ '|' :: paymentId)) =
      true :=
  beq_self_eq_true _

/-- A payment that reaches the server while its booking is still pending is honoured. -/
theorem pending_order_honoured
    (h : Run (CurrentStep P b) Sys.init (pre ++ g :: (mid ++ e :: post)) σ)
    (hg : g.browser = b) (he : e.browser = b) (horder : g.order? = some order)
    (hbooking : g.cookie.pendingBooking = some booking) (hid : order.id ≠ [])
    (hsubmits : e.Submits P order) (haccepts : e.env.accepts 0 = true)
    (huser : ∀ id, e.cookie.userId = some id → e.before.users.HasKey id)
    (hsalon : e.before.salons.HasKey booking.salonId)
    (hkeep : ∀ x ∈ mid, x.browser = b →
      x.booked? = none ∧ x.paid? = none ∧ x.restarts = false) :
    Honoured e.outcome.db booking := by
  obtain ⟨t, t', hpre, hcreate, hrest⟩ := h.at_event
  obtain ⟨u, u', hmid, hstep, -⟩ := hrest.at_event
  obtain ⟨-, -, -, hsession⟩ := hcreate.step.order horder
  obtain ⟨paymentId, hpaymentId, hreq⟩ := hsubmits
  have hcore : SameCore g.cookie e.cookie := by
    rw [hstep.2 he, ← hsession, ← cookie_after hcreate.step, hg]
    exact session_kept hmid hkeep
  have hpending : e.cookie.pendingBooking = some booking := hcore.pendingBooking.trans hbooking
  have hrun : Run (Step P) Sys.init (pre ++ g :: mid) u :=
    (step_run hpre).trans ((Run.single hcreate.step).trans (step_run hmid))
  have hissued := (recorded hrun).presented hstep.step
  obtain ⟨userId, huserId, -⟩ := hissued.pending booking hpending
  obtain ⟨username, husername⟩ : ∃ username, e.cookie.username = some username := by
    rcases hissued.whole with ⟨-, -, hnone⟩ | ⟨-, hname, -⟩
    · rw [hnone] at huserId
      cases huserId
    · exact Option.isSome_iff_exists.mp hname
  have hpayable : Payable P e _ userId username booking :=
    { request := hreq
      user := huserId
      name := husername
      pending := hpending
      paymentId := hpaymentId
      orderId := hid
      signature := P.hmac_ne_nil _
      verified := verifies_signed P order.id paymentId
      accepts := haccepts
      refers := ⟨huser userId huserId, hsalon⟩ }
  have hdb := hpayable.db_eq hstep.step.served
  refine ⟨(e.before.slots.seq + 1, paidRow userId username booking), ?_, rfl, rfl, rfl, rfl, rfl⟩
  rw [hdb]
  exact Table.mem_insert.mpr (.inr ⟨rfl, rfl⟩)

end Browser

theorem pending_order_honoured_visit :
    ∃ booking, Honoured sideBySide.paying.outcome.db booking := by
  have hpending : sideBySide.ordered.cookie.pendingBooking.isSome := by decide +kernel
  obtain ⟨booking, hbooking⟩ := Option.isSome_iff_exists.mp hpending
  have horder : sideBySide.ordered.order? = some ⟨"o1".toList, 1000⟩ := by decide +kernel
  have husers : ∀ id ∈ sideBySide.paying.cookie.userId,
      sideBySide.paying.before.users.HasKey id := by decide +kernel
  have hsalons : ∀ booking ∈ sideBySide.ordered.cookie.pendingBooking,
      sideBySide.paying.before.salons.HasKey booking.salonId := by decide +kernel
  refine ⟨booking, pending_order_honoured (sideBySide.run 1) rfl rfl horder hbooking (by decide)
    ⟨"pay_o1".toList, by decide, rfl⟩ rfl husers (hsalons booking hbooking) (by decide +kernel)⟩

theorem replaced_booking_lost : ¬ ∀ (P : Platform) (b : Nat) (pre mid post : List Event)
    (g e : Event) (σ : Sys) (order : Order) (booking : PendingBooking),
    Run (CurrentStep P b) Sys.init (pre ++ g :: (mid ++ e :: post)) σ →
    g.browser = b → e.browser = b → g.order? = some order →
    g.cookie.pendingBooking = some booking → order.id ≠ [] → e.Submits P order →
    e.cookie.userId = g.cookie.userId → e.env.accepts 0 = true →
    (∀ id, e.cookie.userId = some id → e.before.users.HasKey id) →
    e.before.salons.HasKey booking.salonId → Honoured e.outcome.db booking := by
  intro h
  have hpending : overwritten.ordered.cookie.pendingBooking.isSome := by decide +kernel
  obtain ⟨booking, hbooking⟩ := Option.isSome_iff_exists.mp hpending
  have horder : overwritten.ordered.order? = some ⟨"o1".toList, 1000⟩ := by decide +kernel
  have husers : ∀ id ∈ overwritten.paying.cookie.userId,
      overwritten.paying.before.users.HasKey id := by decide +kernel
  have hsalons : ∀ booking ∈ overwritten.ordered.cookie.pendingBooking,
      overwritten.paying.before.salons.HasKey booking.salonId := by decide +kernel
  have hlost : ∀ booking ∈ overwritten.ordered.cookie.pendingBooking,
      ¬ Honoured overwritten.paying.outcome.db booking := by decide +kernel
  refine hlost booking hbooking (h plain 1 _ _ _ _ _ _ _ booking (overwritten.run 1) rfl rfl
    horder hbooking (by decide) ⟨"pay_o1".toList, by decide, rfl⟩ (by decide +kernel) rfl husers
    (hsalons booking hbooking))

end Gloora
