import Gloora.Effects

/-!
# Playing a script of requests

`play` serves a list of requests, each with the cookie its browser holds, and is used to
reach concrete states of the system. `plain` is a platform whose digests are readable.
-/

namespace Gloora
set_option autoImplicit false

open PyText Runs

/-- What a browser sends, and what happens outside while it is served. -/
structure Input where
  browser : Nat
  env : Env
  request : Request

section Play
variable (P : Platform)

def Sys.event (σ : Sys) (i : Input) : Event where
  browser := i.browser
  cookie := σ.cookie i.browser
  env := i.env
  request := i.request
  before := σ.db
  outcome := handle P i.env σ.db (σ.cookie i.browser) i.request

def Sys.after (σ : Sys) (e : Event) : Sys where
  db := e.outcome.db
  jar := Function.update σ.jar e.browser (e.outcome.session :: σ.jar e.browser)

def play : Sys → List Input → List Event × Sys
  | σ, [] => ([], σ)
  | σ, i :: is =>
    let e := σ.event P i
    let rest := play (σ.after e) is
    (e :: rest.1, rest.2)

theorem step_event (σ : Sys) (i : Input) : Step P σ (σ.event P i) (σ.after (σ.event P i)) := by
  refine ⟨?_, rfl, rfl, rfl, rfl⟩
  change σ.cookie i.browser = {} ∨ σ.cookie i.browser ∈ σ.jar i.browser
  unfold Sys.cookie
  cases hjar : σ.jar i.browser with
  | nil => exact Or.inl rfl
  | cons c cs => exact Or.inr List.mem_cons_self

theorem play_run (b : Nat) (σ : Sys) (is : List Input) :
    Run (CurrentStep P b) σ (play P σ is).1 (play P σ is).2 := by
  induction is generalizing σ with
  | nil => exact .nil
  | cons i is ih =>
    refine Run.cons ⟨step_event P σ i, ?_⟩ (ih _)
    rintro rfl
    rfl

theorem play_steps (σ : Sys) (is : List Input) : Run (Step P) σ (play P σ is).1 (play P σ is).2 :=
  (play_run P 0 σ is).mono fun _ _ _ h => h.1

theorem play_then (b : Nat) (σ : Sys) (is : List Input) (i : Input) :
    Run (CurrentStep P b) σ ((play P σ is).1 ++ [(play P σ is).2.event P i])
      ((play P σ is).2.after ((play P σ is).2.event P i)) :=
  .snoc (play_run P b σ is) ⟨step_event P _ i, fun h => h ▸ rfl⟩

end Play

section Scripts

def plain : Platform where
  adminUsername := none
  adminEmail := none
  adminPassword := none
  windows := false
  generatePasswordHash := fun _ p => p
  checkPasswordHash := fun hash p => hash == p
  check_generate := fun _ p q => by rw [beq_iff_eq]; exact eq_comm
  hmacSha256 := fun msg => '#' :: msg
  hmac_ne_nil := by simp
  nfkdAscii := id
  finalSigma := fun _ _ => false

/-- A request served at `now`, with an order of the given id if one is created. -/
def calmly (now : Nat) (order : String) : Env where
  now := now
  unixTime := 0
  salt := 0
  createOrder := fun _ => some order.toList
  accepts := fun _ => true

def sends (browser : Nat) (request : Request) : Input := ⟨browser, calmly 0 "order", request⟩

def opensPayment (browser : Nat) (order : String) : Input :=
  ⟨browser, calmly 0 order, .payment 1⟩

def account (name : String) : AuthForm where
  username := some name.toList
  email := some (name ++ "@gmail.com").toList
  mobile := some name.toList
  password := some "pw".toList

def registerAs (name : String) : Request := .auth .male (some "register".toList) (account name)

def loginAs (name : String) : Request := .loginPage (some (account name))

def openSalon (workers : String) (services prices : List String) : Request :=
  .registerSalon
    { name := some "Unisex".toList
      address := some []
      city := some "Nagpur".toList
      state := some "MH".toList
      contact := some "1".toList
      passKey := some "1234".toList
      workerCount := some workers.toList
      image := none
      serviceNames := services.map String.toList
      servicePrices := prices.map String.toList }

def book (salonId : Nat) (date time : String) (services : List String) (total : String) :
    Request :=
  .bookSlotForSalon salonId (some
    { slotDate := some date.toList
      slotTime := some time.toList
      selectedServices := services.map String.toList
      totalPrice := some total.toList })

/-- The payment `pay_` of an order, as the gateway signs it for `plain`. -/
def payFor (order : String) : Request :=
  .paymentSuccess
    { paymentId := some ("pay_" ++ order).toList
      orderId := some order.toList
      signature := some (plain.hmacSha256 (order.toList ++ '|' :: ("pay_" ++ order).toList)) }

def opening (workers : String) : List Input :=
  [sends 1 (registerAs "ann"), sends 2 (registerAs "bob"),
    sends 1 (openSalon workers ["cut", "shave"] ["100", "50"]),
    sends 1 (loginAs "ann"), sends 2 (loginAs "bob")]

def firstBooking (workers : String) : List Input :=
  opening workers ++ [sends 1 (book 1 "2030-01-01" "10:00" ["1"] "100")]

/-- A script that the app serves from an empty database without an exception. -/
structure Script where
  inputs : List Input
  served : ((play plain Sys.init inputs).1.all fun e => !e.outcome.body.failed) = true

namespace Script
variable (c : Script)

def events : List Event := (play plain Sys.init c.inputs).1

def final : Sys := (play plain Sys.init c.inputs).2

theorem run (b : Nat) : Run (CurrentStep plain b) Sys.init c.events c.final :=
  play_run plain b Sys.init c.inputs

theorem steps : Run (Step plain) Sys.init c.events c.final := play_steps plain Sys.init c.inputs

end Script

/-- Such a script in which an order is created and later paid. -/
structure Checkout where
  before : List Input
  order : Input
  between : List Input
  payment : Input
  served : ((play plain Sys.init (before ++ order :: (between ++ [payment]))).1.all fun e =>
    !e.outcome.body.failed) = true

namespace Checkout
variable (c : Checkout)

def ordered : Event := (play plain Sys.init c.before).2.event plain c.order

def resumed : Sys := (play plain Sys.init c.before).2.after c.ordered

def paying : Event := (play plain c.resumed c.between).2.event plain c.payment

def events : List Event := (play plain Sys.init c.before).1 ++ c.ordered ::
  ((play plain c.resumed c.between).1 ++ [c.paying])

theorem run (b : Nat) : Run (CurrentStep plain b) Sys.init c.events
    ((play plain c.resumed c.between).2.after c.paying) := by
  have hrun := (play_then plain b Sys.init c.before c.order).trans
    (play_then plain b c.resumed c.between c.payment)
  rwa [List.append_assoc, List.singleton_append] at hrun

end Checkout

end Scripts

end Gloora
