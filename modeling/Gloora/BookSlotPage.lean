import Gloora.Booking

/-!
# The script of the booking page

book_slot.js, as far as it decides which buttons are enabled, which slots are picked and
which total is sent.
`none` is JavaScript's NaN. Counts and worker counts are exact integers: a table holds fewer
than 2^53 labels, and rounding a larger worker count keeps it above every count.
-/

namespace Gloora
set_option autoImplicit false

open PyText Binary64 Calendar

section Clock

/-- `Number` on the digit strings of a clock time. -/
def number (text : Text) : Option Nat :=
  if text.all Char.isDigit then some (ofDigits (text.map fun c => c.toNat - '0'.toNat)) else none

def timeToMinutes (time : Text) : Option Nat :=
  match time.splitOn ':' with
  | h :: m :: _ => do pure ((← number h) * 60 + (← number m))
  | _ => none

def padStart2 (n : Nat) : Text :=
  let digits := Nat.toDigits 10 n
  List.replicate (2 - digits.length) '0' ++ digits

def minutesToTime : Option Nat → Text
  | none => "NaN:NaN".toList
  | some minutes => padStart2 (minutes / 60) ++ ':' :: padStart2 (minutes % 60)

def getRequiredSlots (startTime : Text) (serviceCount : Nat) : List Text :=
  let startMinutes := timeToMinutes startTime
  (List.range serviceCount).map fun i => minutesToTime (startMinutes.map fun m => m + i * 30)

end Clock

structure BookSlotPage where
  dateInput : Text
  todayDate : Text
  currentMinutes : Nat
  selectedServiceCount : Nat
  bookedSlots : List (Text × Nat) := []
  workerCount : Int := 0

namespace BookSlotPage
variable (page : BookSlotPage)

/-- `loadSlotStatus`, given the answer to its request; `data.workerCount || 1` reads 0 as 1. -/
def loadSlotStatus (answer : Body) : BookSlotPage :=
  if page.dateInput.isEmpty then page
  else
    match answer with
    | .bookedSlots slots workerCount =>
      { page with
        bookedSlots := slots
        workerCount := max (if workerCount = 0 then 1 else workerCount) 1 }
    | _ => page

/-- Whether `updateSlotButtons` disables the button of a time; comparisons with NaN fail. -/
def disabled (time : Text) : Bool :=
  let serviceCount := max page.selectedServiceCount 1
  let requiredSlots := getRequiredSlots time serviceCount
  let lastSlotMinutes := (requiredSlots.getLast?.bind timeToMinutes).map fun m => m + 30
  if page.dateInput == page.todayDate &&
      (timeToMinutes time).any (fun m => m ≤ page.currentMinutes) then true
  else if lastSlotMinutes.any fun m => 22 * 60 < m then true
  else requiredSlots.any fun slot => page.workerCount ≤ (Tally.get page.bookedSlots slot : Int)

end BookSlotPage

section Buttons

/-- A slot button; `selected` is the class of that name. -/
structure SlotButton where
  time : Text
  disabled : Bool := false
  selected : Bool := false
deriving DecidableEq

/-- The `data-time` of the buttons of book_slot.html; the last hour has one button. -/
def slotTimes : List Text :=
  (List.range' 7 15).flatMap fun hour =>
    (pad2 hour ++ ":00".toList) :: if hour = 21 then [] else [pad2 hour ++ ":30".toList]

/-- The page with its buttons, `selectedSlots` and the value of the hidden time input. -/
structure SlotPicker where
  page : BookSlotPage
  buttons : List SlotButton
  selectedSlots : List Text := []
  hiddenTimeInput : Text := []

namespace SlotPicker
variable (p : SlotPicker)

def click (k : Nat) : SlotPicker :=
  match p.buttons[k]? with
  | none => p
  | some btn =>
    let serviceCount := p.page.selectedServiceCount
    if serviceCount = 0 then p
    else if btn.disabled then p
    else if btn.selected then
      let selectedSlots := p.selectedSlots.filter fun t => t != btn.time
      { p with
        buttons := p.buttons.set k { btn with selected := false }
        selectedSlots
        hiddenTimeInput := joinComma selectedSlots }
    else if serviceCount ≤ p.selectedSlots.length then p
    else
      let selectedSlots := p.selectedSlots ++ [btn.time]
      { p with
        buttons := p.buttons.set k { btn with selected := true }
        selectedSlots
        hiddenTimeInput := joinComma selectedSlots }

def clicks (ks : List Nat) : SlotPicker := ks.foldl click p

def submits : Bool := p.page.selectedServiceCount != 0 && !p.hiddenTimeInput.isEmpty

/-- What the browser posts for the checked services and the total on the page. -/
def form (selectedServices : List Text) (totalPrice : Text) : BookForm where
  slotDate := some p.page.dateInput
  slotTime := some p.hiddenTimeInput
  selectedServices := selectedServices
  totalPrice := some totalPrice

end SlotPicker

end Buttons

section Total

/-- `parseFloat` of a rendered price: the text of a finite float is read back, `None` and
`inf` are not numbers. -/
def renderedPrice : Option Double → Double
  | some (.fin n) => .fin n
  | _ => .nan

def calculateTotal (prices : List (Option Double)) : Double :=
  prices.foldl (fun total price => add total (renderedPrice price)) (.fin 0)

end Total

end Gloora
