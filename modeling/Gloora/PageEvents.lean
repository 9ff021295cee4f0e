import Gloora.BookSlotPage

/-!
# The booking page over time

The handlers of book_slot.js as steps of the open page: a service is checked or unchecked,
the date changes, the answer to a /get-booked-slots request arrives, a slot button is
clicked. Answers arrive in any order, whatever the order of their requests.
-/

namespace Gloora
set_option autoImplicit false

open PyText

namespace SlotPicker
variable (p : SlotPicker)

def refreshed : List SlotButton :=
  p.buttons.map fun btn => { btn with disabled := p.page.disabled btn.time }

/-- `updateSlotButtons` up to the end of its loop, when the clock says `minutes`. -/
def refresh (minutes : Nat) : SlotPicker :=
  let p' := { p with page := { p.page with currentMinutes := minutes } }
  { p' with buttons := p'.refreshed }

/-- The end of `updateSlotButtons`; only the first button with the class `selected` is looked
at, and `selectedSlots` is left alone. -/
def dropDisabled : SlotPicker :=
  match p.buttons.zipIdx.find? fun b => b.1.selected with
  | some (btn, k) =>
    if btn.disabled then
      { p with
        buttons := p.buttons.set k { btn with selected := false }
        hiddenTimeInput := [] }
    else p
  | none => p

def updateSlotButtons (minutes : Nat) : SlotPicker := (p.refresh minutes).dropDisabled

def withServices (count : Nat) : SlotPicker :=
  { p with page := { p.page with selectedServiceCount := count } }

def serviceChange (count minutes : Nat) : SlotPicker :=
  if p.page.dateInput.isEmpty then p.withServices count
  else (p.withServices count).updateSlotButtons minutes

/-- The change handler of the date input, up to the request it sends. -/
def dateChange (date : Text) : SlotPicker :=
  { p with
    page := { p.page with dateInput := date }
    buttons := p.buttons.map fun btn => { btn with selected := false }
    hiddenTimeInput := [] }

def received (slots : List (Text × Nat)) (workerCount : Int) : SlotPicker :=
  { p with
    page := { p.page with
      bookedSlots := slots
      workerCount := max (if workerCount = 0 then 1 else workerCount) 1 } }

/-- The callbacks of `loadSlotStatus`; an error page is not JSON and changes nothing. -/
def slotStatus (answer : Body) (minutes : Nat) : SlotPicker :=
  match answer with
  | .bookedSlots slots workerCount => (p.received slots workerCount).updateSlotButtons minutes
  | _ => p

end SlotPicker

/-- The date input and the requests for its dates. `inFlight` holds the unanswered ones, with
their numbers, and `answered` the others, the last to be answered first. -/
structure Traffic where
  date : Text
  sent : Nat := 0
  inFlight : List (Nat × Text) := []
  answered : List (Nat × Text) := []

namespace Traffic
variable (t : Traffic)

/-- `loadSlotStatus` up to its answer: no request is sent without a date. -/
def request (date : Text) : Traffic :=
  if date.isEmpty then { t with date }
  else { t with date, sent := t.sent + 1, inFlight := t.inFlight ++ [(t.sent, date)] }

def arrive (k : Nat) : Traffic :=
  match t.inFlight[k]? with
  | none => t
  | some r => { t with inFlight := t.inFlight.eraseIdx k, answered := r :: t.answered }

end Traffic

/-- What happens to the open page; `minutes` is what its clock says then. -/
inductive PageEvent where
  | service (i minutes : Nat)
  | date (value : Text)
  /-- One of the requests in flight is answered. -/
  | answer (k minutes : Nat)
  | click (k : Nat)
deriving DecidableEq

def Traffic.step (t : Traffic) : PageEvent → Traffic
  | .date value => t.request value
  | .answer k _ => t.arrive k
  | _ => t

structure LivePage where
  picker : SlotPicker
  checked : List Bool
  traffic : Traffic

namespace LivePage

/-- DOMContentLoaded, with any boxes checked and any date in the input. -/
def load (todayDate date : Text) (checked : List Bool) : LivePage where
  picker :=
    { page :=
        { dateInput := date
          todayDate
          currentMinutes := 0
          selectedServiceCount := checked.count true }
      buttons := slotTimes.map fun time => { time } }
  checked
  traffic := Traffic.request { date } date

/-- One event; `answers` is the reply to the request with a number and a date. -/
def step (answers : Nat → Text → Body) (p : LivePage) (e : PageEvent) : LivePage where
  checked :=
    match e with
    | .service i _ => p.checked.modify i not
    | _ => p.checked
  traffic := p.traffic.step e
  picker :=
    match e with
    | .service i minutes =>
      if i < p.checked.length then
        p.picker.serviceChange ((p.checked.modify i not).count true) minutes
      else p.picker
    | .date value => p.picker.dateChange value
    | .answer k minutes =>
      match p.traffic.inFlight[k]? with
      | some (id, date) => p.picker.slotStatus (answers id date) minutes
      | none => p.picker
    | .click k => p.picker.click k

def after (answers : Nat → Text → Body) (p : LivePage) (evs : List PageEvent) : LivePage :=
  evs.foldl (step answers) p

end LivePage

end Gloora
