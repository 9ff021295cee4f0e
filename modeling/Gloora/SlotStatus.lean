import Gloora.PageEvents
import Gloora.Picking
import Gloora.Play

/-!
# Whose availability the page shows

Every change of the date sends a request, and whichever answer arrives last stays in
`bookedSlots`. It is the one for the date in the input when no answer for another date
overtakes it.
-/

namespace Gloora
set_option autoImplicit false

open PyText Keyed

/-- The answers of a server whose tables are `dbs n` when it serves the request number `n`. -/
def serverAnswers (salonId : Nat) (dbs : Nat → Db) (n : Nat) (date : Text) : Body :=
  (getBookedSlots (dbs n) {} salonId date).body

def Traffic.after (t : Traffic) (evs : List PageEvent) : Traffic := evs.foldl step t

namespace SlotPicker
variable {p : SlotPicker}

/-- Every button is as `updateSlotButtons` would set it from the variables. -/
def Current (p : SlotPicker) : Prop :=
  ∀ btn ∈ p.buttons, btn.disabled = p.page.disabled btn.time

theorem dropDisabled_page (p : SlotPicker) : p.dropDisabled.page = p.page := by
  unfold dropDisabled
  repeat' split
  all_goals rfl

/-- Buttons that only gained or lost the class are still current. -/
theorem Current.of_buttons {q : SlotPicker} (h : p.Current) (hpage : q.page = p.page)
    (hbuttons : ∀ btn ∈ q.buttons, ∃ old ∈ p.buttons,
      btn.time = old.time ∧ btn.disabled = old.disabled) : q.Current := by
  intro btn hbtn
  obtain ⟨old, hold, htime, hdisabled⟩ := hbuttons btn hbtn
  rw [hpage, htime, hdisabled]
  exact h old hold

theorem mem_set_selected {k : Nat} {btn old : SlotButton} {selected : Bool}
    {buttons : List SlotButton} (hold : old ∈ buttons)
    (hbtn : btn ∈ buttons.set k { old with selected := selected }) :
    ∃ b ∈ buttons, btn.time = b.time ∧ btn.disabled = b.disabled := by
  rcases List.mem_or_eq_of_mem_set hbtn with hmem | rfl
  · exact ⟨btn, hmem, rfl, rfl⟩
  · exact ⟨old, hold, rfl, rfl⟩

theorem Current.dropDisabled (h : p.Current) : p.dropDisabled.Current := by
  apply h.of_buttons (dropDisabled_page p)
  intro btn hbtn
  unfold SlotPicker.dropDisabled at hbtn
  split at hbtn
  · rename_i old k hfind
    have hold : old ∈ p.buttons :=
      List.mem_of_getElem? (List.mem_zipIdx_iff_getElem?.mp (List.mem_of_find?_eq_some hfind))
    split at hbtn
    · exact mem_set_selected hold hbtn
    · exact ⟨btn, hbtn, rfl, rfl⟩
  · exact ⟨btn, hbtn, rfl, rfl⟩

theorem updateSlotButtons_current (p : SlotPicker) (minutes : Nat) :
    (p.updateSlotButtons minutes).Current := by
  apply Current.dropDisabled
  intro btn hbtn
  obtain ⟨old, -, rfl⟩ := List.mem_map.mp hbtn
  rfl

theorem updateSlotButtons_page (p : SlotPicker) (minutes : Nat) :
    (p.updateSlotButtons minutes).page = { p.page with currentMinutes := minutes } :=
  dropDisabled_page _

theorem Current.click (h : p.Current) (k : Nat) : (p.click k).Current := by
  apply h.of_buttons (click_page k)
  intro b hb
  unfold SlotPicker.click at hb
  split at hb
  · exact ⟨b, hb, rfl, rfl⟩
  rename_i btn hk
  have hbtn : btn ∈ p.buttons := List.mem_of_getElem? hk
  simp only at hb
  split at hb
  · exact ⟨b, hb, rfl, rfl⟩
  split at hb
  · exact ⟨b, hb, rfl, rfl⟩
  split at hb
  · exact mem_set_selected hbtn hb
  split at hb
  · exact ⟨b, hb, rfl, rfl⟩
  · exact mem_set_selected hbtn hb

end SlotPicker

namespace LivePage

/-- The page shows what the server knows about the date in the input. -/
structure ShowsDate (salonId : Nat) (dbs : Nat → Db) (p : LivePage) : Prop where
  slots : ∃ n, (n, p.picker.page.dateInput) ∈ p.traffic.answered ∧
    serverAnswers salonId dbs n p.picker.page.dateInput =
      .bookedSlots p.picker.page.bookedSlots p.picker.page.workerCount
  buttons : p.picker.Current

/-- The variables hold the last answer, and the buttons are current unless one is due. -/
structure HoldsLast (answers : Nat → Text → Body) (p : LivePage) : Prop where
  date : p.picker.page.dateInput = p.traffic.date
  dated : ∀ r ∈ p.traffic.inFlight ++ p.traffic.answered, r.2 ≠ []
  last : ∀ n date, p.traffic.answered.head? = some (n, date) →
    answers n date = .bookedSlots p.picker.page.bookedSlots p.picker.page.workerCount
  buttons : p.traffic.date = [] ∨ p.traffic.inFlight ≠ [] ∨ p.picker.Current

variable {answers : Nat → Text → Body} {p : LivePage}

theorem request_dated {t : Traffic} {date : Text}
    (h : ∀ r ∈ t.inFlight ++ t.answered, r.2 ≠ []) :
    ∀ r ∈ (t.request date).inFlight ++ (t.request date).answered, r.2 ≠ [] := by
  intro r hr
  unfold Traffic.request at hr
  split at hr
  · exact h r hr
  · rename_i hdate
    simp only [List.mem_append, List.mem_singleton] at hr
    rcases hr with (hr | rfl) | hr
    · exact h r (List.mem_append_left _ hr)
    · simpa using hdate
    · exact h r (List.mem_append_right _ hr)

theorem request_answered (t : Traffic) (date : Text) :
    (t.request date).answered = t.answered := by
  unfold Traffic.request
  split <;> rfl

theorem request_date (t : Traffic) (date : Text) : (t.request date).date = date := by
  unfold Traffic.request
  split <;> rfl

theorem request_due (t : Traffic) (date : Text) :
    date = [] ∨ (t.request date).inFlight ≠ [] := by
  unfold Traffic.request
  split
  · rename_i hdate
    exact .inl (List.isEmpty_iff.mp hdate)
  · exact .inr (by simp)

theorem HoldsLast.service (h : HoldsLast answers p) (i minutes : Nat) :
    HoldsLast answers (p.step answers (.service i minutes)) := by
  unfold step
  simp only
  split
  · unfold SlotPicker.serviceChange
    split
    · rename_i hdate
      rw [List.isEmpty_iff, h.date] at hdate
      exact ⟨h.date, h.dated, h.last, .inl hdate⟩
    · refine ⟨?_, h.dated, ?_, .inr (.inr (SlotPicker.updateSlotButtons_current _ _))⟩
      · rw [SlotPicker.updateSlotButtons_page]
        exact h.date
      · rw [SlotPicker.updateSlotButtons_page]
        exact h.last
  · exact ⟨h.date, h.dated, h.last, h.buttons⟩

theorem HoldsLast.dateChange (h : HoldsLast answers p) (value : Text) :
    HoldsLast answers (p.step answers (.date value)) := by
  refine ⟨(request_date _ _).symm, request_dated h.dated, ?_, ?_⟩
  · intro n date hlast
    exact h.last n date (request_answered _ _ ▸ hlast)
  · rcases request_due p.traffic value with hnil | hdue
    · exact .inl ((request_date _ _).trans hnil)
    · exact .inr (.inl hdue)

theorem HoldsLast.answer (h : HoldsLast answers p)
    (hanswers : ∀ n date, ∃ slots workerCount, answers n date = .bookedSlots slots workerCount ∧
      1 ≤ workerCount) (k minutes : Nat) :
    HoldsLast answers (p.step answers (.answer k minutes)) := by
  unfold step Traffic.step Traffic.arrive
  simp only
  cases hk : p.traffic.inFlight[k]? with
  | none => exact ⟨h.date, h.dated, h.last, h.buttons⟩
  | some r =>
    obtain ⟨n, date⟩ := r
    obtain ⟨slots, workerCount, hanswer, hpositive⟩ := hanswers n date
    have hworkers : max (if workerCount = 0 then 1 else workerCount) 1 = workerCount := by
      rw [if_neg (by omega)]
      omega
    simp only [hanswer, SlotPicker.slotStatus]
    refine ⟨?_, ?_, ?_, .inr (.inr (SlotPicker.updateSlotButtons_current _ _))⟩
    · rw [SlotPicker.updateSlotButtons_page]
      exact h.date
    · intro r hr
      simp only [List.mem_append, List.mem_cons] at hr
      rcases hr with hr | rfl | hr
      · exact h.dated r (List.mem_append_left _ (List.mem_of_mem_eraseIdx hr))
      · exact h.dated _ (List.mem_append_left _ (List.mem_of_getElem? hk))
      · exact h.dated r (List.mem_append_right _ hr)
    · rintro n' date' hlast
      obtain ⟨rfl, rfl⟩ := Prod.mk.inj (Option.some.inj hlast)
      rw [SlotPicker.updateSlotButtons_page, hanswer]
      simp only [SlotPicker.received, hworkers]

theorem HoldsLast.click (h : HoldsLast answers p) (k : Nat) :
    HoldsLast answers (p.step answers (.click k)) := by
  refine ⟨?_, h.dated, ?_, ?_⟩
  · simp only [step, SlotPicker.click_page]
    exact h.date
  · simp only [step, SlotPicker.click_page]
    exact h.last
  · rcases h.buttons with hdate | hdue | hcurrent
    · exact .inl hdate
    · exact .inr (.inl hdue)
    · exact .inr (.inr (hcurrent.click k))

theorem after_holdsLast
    (hanswers : ∀ n date, ∃ slots workerCount, answers n date = .bookedSlots slots workerCount ∧
      1 ≤ workerCount) (todayDate date : Text) (checked : List Bool) (evs : List PageEvent) :
    HoldsLast answers ((load todayDate date checked).after answers evs) := by
  induction evs using List.reverseRecOn with
  | nil =>
    refine ⟨(request_date _ _).symm, request_dated (by simp), ?_, ?_⟩
    · intro n date' hlast
      rw [after, List.foldl_nil, load, request_answered] at hlast
      cases hlast
    · rcases request_due { date } date with hnil | hdue
      · exact .inl ((request_date _ _).trans hnil)
      · exact .inr (.inl hdue)
  | append_singleton evs e ih =>
    rw [after, List.foldl_append]
    cases e with
    | service i minutes => exact ih.service i minutes
    | date value => exact ih.dateChange value
    | answer k minutes => exact ih.answer hanswers k minutes
    | click k => exact ih.click k

theorem after_traffic (evs : List PageEvent) :
    (p.after answers evs).traffic = p.traffic.after evs := by
  induction evs generalizing p with
  | nil => rfl
  | cons e evs ih => exact ih

end LivePage

section Server
variable {salonId : Nat} {dbs : Nat → Db}

theorem serverAnswers_eq {n : Nat} {salon : Salon}
    (h : (dbs n).salons.find? salonId = some salon) (date : Text) :
    serverAnswers salonId dbs n date =
      .bookedSlots (bookedCount ((dbs n).paidSlotTimes salonId date))
        (effectiveWorkers salon.workerCount) := by
  rw [serverAnswers, getBookedSlots, h]

theorem serverAnswers_slots (h : ∀ n, (dbs n).salons.HasKey salonId) (n : Nat) (date : Text) :
    ∃ slots workerCount, serverAnswers salonId dbs n date = .bookedSlots slots workerCount ∧
      1 ≤ workerCount := by
  obtain ⟨salon, hsalon⟩ := h n
  exact ⟨_, _, serverAnswers_eq (Table.find?_eq_some.mpr hsalon) date, effectiveWorkers_pos _⟩

/-- A salon with one worker. -/
def oneWorker : Salon where
  salonName := []
  address := none
  city := []
  state := []
  lat := none
  lng := none
  contact := []
  status := "ON".toList
  ownerUsername := []
  ownerId := none
  email := []
  passKey := []
  ratingTotal := 0
  ratingCount := 0
  image := none
  workerCount := some 1

/-- This salon, with one booking, at 10:00 on a date. -/
def bookedOn (salonId : Nat) (date : Text) : Db where
  users := .empty
  salons :=
    { rows := [(salonId, oneWorker)]
      seq := salonId
      ascending := List.pairwise_singleton _ _
      bounded := by simp }
  services := .empty
  salonServices := .empty
  slots := Table.empty.insert
    { userId := 1, username := [], salonId, serviceId := none, slotDate := date
      slotTime := some "10:00".toList, startTime := "10:00".toList, endTime := "10:30".toList
      selectedServices := [], totalPrice := none, paymentStatus := "paid".toList }

theorem bookedOn_hasKey (salonId : Nat) (date : Text) :
    (bookedOn salonId date).salons.HasKey salonId :=
  ⟨oneWorker, List.mem_singleton_self _⟩

theorem bookedOn_paid (salonId : Nat) (date date' : Text) :
    (bookedOn salonId date).paidSlotTimes salonId date' =
      if date = date' then [some "10:00".toList] else [] := by
  rw [Db.paidSlotTimes, bookedOn, Table.select_insert]
  by_cases hdate : date = date' <;> simp [hdate, Table.select]

theorem bookedOn_answer (salonId n : Nat) (date date' : Text) :
    serverAnswers salonId (fun _ => bookedOn salonId date) n date' =
      .bookedSlots (if date = date' then [("10:00".toList, 1)] else []) 1 := by
  have hsalon : (bookedOn salonId date).salons.find? salonId = some oneWorker :=
    Table.find?_eq_some.mpr (List.mem_singleton_self _)
  rw [serverAnswers_eq hsalon, bookedOn_paid]
  by_cases hdate : date = date'
  · rw [if_pos hdate, if_pos hdate]
    decide
  · rw [if_neg hdate, if_neg hdate]
    rfl

end Server

namespace LivePage

/-- Once every request is answered the page shows the date in its input, whatever the server
knows, exactly when the last answer was for that date. -/
theorem shows_date_iff (salonId : Nat) (todayDate date : Text) (checked : List Bool)
    (evs : List PageEvent) (hdone : ((Traffic.request { date } date).after evs).inFlight = []) :
    (∀ dbs : Nat → Db, (∀ n, (dbs n).salons.HasKey salonId) → ShowsDate salonId dbs
      ((load todayDate date checked).after (serverAnswers salonId dbs) evs)) ↔
    ∃ n, ((Traffic.request { date } date).after evs).answered.head? =
      some (n, ((Traffic.request { date } date).after evs).date) := by
  have htraffic : ∀ answers, ((load todayDate date checked).after answers evs).traffic =
      (Traffic.request { date } date).after evs := fun answers => after_traffic evs
  generalize (Traffic.request { date } date).after evs = t at hdone htraffic ⊢
  constructor
  · intro hshows
    -- a server with a booking on the date in the input, and on no other date
    let dbs : Nat → Db := fun _ => bookedOn salonId t.date
    obtain ⟨n, hmem, hanswer⟩ := (hshows dbs fun _ => bookedOn_hasKey salonId t.date).slots
    have hanswers : ∀ n date, ∃ slots workerCount,
        serverAnswers salonId dbs n date = .bookedSlots slots workerCount ∧ 1 ≤ workerCount :=
      serverAnswers_slots fun _ => bookedOn_hasKey salonId t.date
    have hholds := after_holdsLast hanswers todayDate date checked evs
    have hdate := hholds.date
    have hlast := hholds.last
    rw [htraffic] at hmem hdate hlast
    rw [hdate, bookedOn_answer, if_pos rfl] at hanswer
    cases hhead : t.answered with
    | nil =>
      rw [hhead] at hmem
      cases hmem
    | cons r rest =>
      obtain ⟨n', date'⟩ := r
      have hlast' := hlast n' date' (by rw [hhead]; rfl)
      rw [bookedOn_answer, ← hanswer] at hlast'
      by_cases hsame : t.date = date'
      · exact ⟨n', by rw [hsame]; rfl⟩
      · rw [if_neg hsame] at hlast'
        simp at hlast'
  · rintro ⟨n, hlast⟩ dbs hsalons
    have hholds := after_holdsLast (serverAnswers_slots hsalons) todayDate date checked evs
    have hmem : (n, t.date) ∈ t.answered := List.mem_of_head? hlast
    refine ⟨⟨n, ?_, ?_⟩, ?_⟩
    · rw [htraffic, hholds.date, htraffic]
      exact hmem
    · rw [hholds.date, htraffic]
      exact hholds.last n t.date (by rw [htraffic]; exact hlast)
    · have hdated := hholds.dated (n, t.date)
        (by rw [htraffic]; exact List.mem_append_right _ hmem)
      rcases hholds.buttons with hnil | hdue | hcurrent
      · rw [htraffic] at hnil
        exact absurd hnil hdated
      · rw [htraffic] at hdue
        exact absurd hdone hdue
      · exact hcurrent

/-- The second answer arrives last. -/
theorem shows_date_iff_inOrder : ShowsDate 1 (fun _ => bookedOn 1 "2030-01-02".toList)
    ((load "2030-01-01".toList "2030-01-01".toList [false]).after
      (serverAnswers 1 fun _ => bookedOn 1 "2030-01-02".toList)
      [.date "2030-01-02".toList, .answer 0 480, .answer 0 480]) :=
  (shows_date_iff 1 "2030-01-01".toList "2030-01-01".toList [false]
    [.date "2030-01-02".toList, .answer 0 480, .answer 0 480] (by decide)).mpr ⟨1, by decide⟩ _
    fun _ => bookedOn_hasKey 1 _

/-- The first answer overtakes the second, and its 10:00 is shown as taken. -/
theorem overtaken_answer_shown : ¬ ∀ (salonId : Nat) (dbs : Nat → Db) (todayDate date : Text)
    (checked : List Bool) (evs : List PageEvent), (∀ n, (dbs n).salons.HasKey salonId) →
    ((Traffic.request { date } date).after evs).inFlight = [] →
    ShowsDate salonId dbs ((load todayDate date checked).after (serverAnswers salonId dbs) evs) := by
  intro h
  obtain ⟨n, -, hanswer⟩ := (h 1 (fun _ => bookedOn 1 "2030-01-01".toList)
    "2030-01-01".toList "2030-01-01".toList [false]
    [.date "2030-01-02".toList, .answer 1 480, .answer 0 480]
    (fun _ => bookedOn_hasKey 1 _) (by decide)).slots
  rw [bookedOn_answer] at hanswer
  exact absurd hanswer (by decide +kernel)

end LivePage

end Gloora
