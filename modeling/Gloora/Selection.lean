import Gloora.Lib.Runs
import Gloora.PageEvents
import Gloora.Picking

/-!
# The selection of the booking page

The picked slots are kept three times: in `selectedSlots`, as the class `selected` of the
buttons, and in the hidden time input. The three agree as long as no event takes a picked
slot away.
-/

namespace Gloora
set_option autoImplicit false

open PyText Runs

namespace SlotPicker

/-- What the page shows, what it has noted and what it would post agree. -/
structure SelectionAgrees (p : SlotPicker) : Prop where
  times : p.buttons.map SlotButton.time = slotTimes
  hidden : p.hiddenTimeInput = joinComma p.selectedSlots
  listed : p.selectedSlots.Nodup
  shown : ∀ t, t ∈ p.selectedSlots ↔ p.Highlighted t
  enabled : ∀ btn ∈ p.buttons, btn.selected = true → btn.disabled = false
  limit : (p.buttons.filter SlotButton.selected).length ≤ p.page.selectedServiceCount

/-- The part of it that does not look at the counts and the disabled buttons. -/
structure Listed (p : SlotPicker) : Prop where
  times : p.buttons.map SlotButton.time = slotTimes
  hidden : p.hiddenTimeInput = joinComma p.selectedSlots
  listed : p.selectedSlots.Nodup
  shown : ∀ t, t ∈ p.selectedSlots ↔ p.Highlighted t

/-- No picked slot would be disabled if the buttons were updated now. -/
def StaysEnabled (p : SlotPicker) (minutes : Nat) : Prop :=
  ∀ btn ∈ p.buttons, btn.selected = true →
    { p.page with currentMinutes := minutes }.disabled btn.time = false

variable {p : SlotPicker} {t : Text} {k minutes : Nat}

theorem highlighted_iff : p.Highlighted t ↔
    ∃ btn ∈ p.buttons, btn.time = t ∧ btn.selected = true := by
  constructor
  · rintro ⟨k, btn, hk, htime, hselected⟩
    exact ⟨btn, List.mem_of_getElem? hk, htime, hselected⟩
  · rintro ⟨btn, hbtn, htime, hselected⟩
    obtain ⟨k, hk⟩ := List.mem_iff_getElem?.mp hbtn
    exact ⟨k, btn, hk, htime, hselected⟩

theorem SelectionAgrees.toListed (h : p.SelectionAgrees) : p.Listed :=
  ⟨h.times, h.hidden, h.listed, h.shown⟩

theorem Listed.mem_slotTimes (h : p.Listed) (ht : t ∈ p.selectedSlots) : t ∈ slotTimes := by
  obtain ⟨btn, hbtn, rfl, -⟩ := highlighted_iff.mp ((h.shown t).mp ht)
  rw [← h.times]
  exact List.mem_map_of_mem hbtn

theorem slotTimes_ne_nil (h : t ∈ slotTimes) : t ≠ [] := by
  rw [slotTimes_eq] at h
  obtain ⟨i, -, rfl⟩ := mem_slotLabels.mp h
  simp [Calendar.hhmm]

theorem joinComma_ne_nil {ts : List Text} (ht : t ∈ ts) (hne : t ≠ []) : joinComma ts ≠ [] := by
  intro hnil
  cases ts with
  | nil => cases ht
  | cons u us =>
    cases us with
    | nil =>
      obtain rfl := List.mem_singleton.mp ht
      simp [joinComma] at hnil
      exact hne hnil
    | cons v us =>
      have hcomma := comma_mem_joinComma u v us
      rw [hnil] at hcomma
      cases hcomma

/-- The hidden input is empty only when nothing is picked. -/
theorem Listed.nothing_picked (h : p.Listed) (hnil : joinComma p.selectedSlots = []) :
    p.selectedSlots = [] := by
  rw [List.eq_nil_iff_forall_not_mem]
  intro t ht
  exact joinComma_ne_nil ht (slotTimes_ne_nil (h.mem_slotTimes ht)) hnil

/-- As many buttons are highlighted as slots are noted. -/
theorem Listed.length_selected (h : p.Listed) :
    (p.buttons.filter SlotButton.selected).length = p.selectedSlots.length := by
  have hnodup : ((p.buttons.filter SlotButton.selected).map SlotButton.time).Nodup := by
    have htimes : (p.buttons.map SlotButton.time).Nodup := h.times ▸ slotTimes_nodup
    exact htimes.sublist (List.filter_sublist.map _)
  have hperm : ((p.buttons.filter SlotButton.selected).map SlotButton.time).Perm
      p.selectedSlots := by
    rw [List.perm_ext_iff_of_nodup hnodup h.listed]
    intro t
    rw [h.shown, highlighted_iff]
    simp only [List.mem_map, List.mem_filter]
    constructor
    · rintro ⟨btn, ⟨hbtn, hselected⟩, htime⟩
      exact ⟨btn, hbtn, htime, hselected⟩
    · rintro ⟨btn, hbtn, htime, hselected⟩
      exact ⟨btn, ⟨hbtn, hselected⟩, htime⟩
  rw [← hperm.length_eq, List.length_map]

theorem Listed.agrees_iff (h : p.Listed) : p.SelectionAgrees ↔
    p.selectedSlots.length ≤ p.page.selectedServiceCount ∧
      ∀ btn ∈ p.buttons, btn.selected = true → btn.disabled = false := by
  constructor
  · intro hagrees
    exact ⟨h.length_selected ▸ hagrees.limit, hagrees.enabled⟩
  · rintro ⟨hlimit, henabled⟩
    exact ⟨h.times, h.hidden, h.listed, h.shown, henabled, h.length_selected ▸ hlimit⟩

theorem SelectionAgrees.consistent (h : p.SelectionAgrees) : p.Consistent :=
  ⟨h.times, h.hidden, h.shown, (h.toListed.agrees_iff.mp h).1⟩

section Update

theorem Listed.refresh (h : p.Listed) (minutes : Nat) : (p.refresh minutes).Listed where
  times := by
    simp only [SlotPicker.refresh, refreshed, List.map_map]
    exact h.times
  hidden := h.hidden
  listed := h.listed
  shown := by
    intro t
    rw [highlighted_iff]
    simp only [SlotPicker.refresh, refreshed, List.mem_map]
    rw [h.shown, highlighted_iff]
    constructor
    · rintro ⟨btn, hbtn, htime, hselected⟩
      exact ⟨_, ⟨btn, hbtn, rfl⟩, htime, hselected⟩
    · rintro ⟨-, ⟨btn, hbtn, rfl⟩, htime, hselected⟩
      exact ⟨btn, hbtn, htime, hselected⟩

theorem dropDisabled_enabled
    (h : ∀ btn ∈ p.buttons, btn.selected = true → btn.disabled = false) :
    p.dropDisabled = p := by
  unfold dropDisabled
  split
  · rename_i btn k hfind
    have hselected : btn.selected = true := by simpa using List.find?_some hfind
    have hmem : btn ∈ p.buttons := by
      have hzip := List.mem_of_find?_eq_some hfind
      exact List.mem_of_getElem? (List.mem_zipIdx_iff_getElem?.mp hzip)
    rw [h btn hmem hselected]
    rfl
  · rfl

/-- A picked slot that is disabled makes the three disagree, whether its class goes or not. -/
theorem dropDisabled_disagrees (hp : p.Listed) {btn : SlotButton} (hbtn : btn ∈ p.buttons)
    (hselected : btn.selected = true) (hdisabled : btn.disabled = true) :
    ¬ p.dropDisabled.SelectionAgrees := by
  intro hagrees
  unfold dropDisabled at hagrees
  split at hagrees
  · rename_i first k hfind
    split at hagrees
    · have htime : btn.time ∈ p.selectedSlots :=
        (hp.shown _).mpr (highlighted_iff.mpr ⟨btn, hbtn, rfl, hselected⟩)
      have hnone := hp.nothing_picked hagrees.hidden.symm
      rw [hnone] at htime
      cases htime
    · have henabled := hagrees.enabled btn hbtn hselected
      rw [hdisabled] at henabled
      cases henabled
  · have henabled := hagrees.enabled btn hbtn hselected
    rw [hdisabled] at henabled
    cases henabled

theorem staysEnabled_iff : p.StaysEnabled minutes ↔
    ∀ btn ∈ (p.refresh minutes).buttons, btn.selected = true → btn.disabled = false := by
  simp [StaysEnabled, SlotPicker.refresh, refreshed]

theorem Listed.updateSlotButtons_iff (h : p.Listed) (minutes : Nat) :
    (p.updateSlotButtons minutes).SelectionAgrees ↔
      p.selectedSlots.length ≤ p.page.selectedServiceCount ∧ p.StaysEnabled minutes := by
  by_cases hstays : p.StaysEnabled minutes
  · rw [updateSlotButtons, dropDisabled_enabled (staysEnabled_iff.mp hstays),
      (h.refresh minutes).agrees_iff, ← staysEnabled_iff]
    exact Iff.rfl
  · refine ⟨fun hagrees => ?_, fun hboth => absurd hboth.2 hstays⟩
    rw [staysEnabled_iff] at hstays
    push Not at hstays
    obtain ⟨btn, hbtn, hselected, hdisabled⟩ := hstays
    exact absurd hagrees (dropDisabled_disagrees (h.refresh minutes) hbtn hselected
      (Bool.eq_true_of_not_eq_false hdisabled))

end Update

section Events

theorem Listed.withServices (h : p.Listed) (count : Nat) : (p.withServices count).Listed :=
  ⟨h.times, h.hidden, h.listed, h.shown⟩

theorem Listed.received (h : p.Listed) (slots : List (Text × Nat)) (workerCount : Int) :
    (p.received slots workerCount).Listed :=
  ⟨h.times, h.hidden, h.listed, h.shown⟩

theorem serviceChange_agrees (h : p.SelectionAgrees) (count minutes : Nat) :
    (p.serviceChange count minutes).SelectionAgrees ↔
      p.selectedSlots.length ≤ count ∧
        (p.page.dateInput ≠ [] → (p.withServices count).StaysEnabled minutes) := by
  have hlisted := h.toListed.withServices count
  unfold serviceChange
  split
  · rename_i hdate
    rw [List.isEmpty_iff] at hdate
    rw [hlisted.agrees_iff]
    constructor
    · rintro ⟨hlimit, -⟩
      exact ⟨hlimit, fun hne => absurd hdate hne⟩
    · rintro ⟨hlimit, -⟩
      exact ⟨hlimit, h.enabled⟩
  · rename_i hdate
    rw [List.isEmpty_iff] at hdate
    rw [hlisted.updateSlotButtons_iff]
    constructor
    · rintro ⟨hlimit, hstays⟩
      exact ⟨hlimit, fun _ => hstays⟩
    · rintro ⟨hlimit, hstays⟩
      exact ⟨hlimit, hstays hdate⟩

theorem dateChange_agrees (h : p.SelectionAgrees) (date : Text) :
    (p.dateChange date).SelectionAgrees ↔ p.selectedSlots = [] := by
  constructor
  · intro hagrees
    exact h.toListed.nothing_picked hagrees.hidden.symm
  · intro hnone
    have hunselected : ∀ btn ∈ (p.dateChange date).buttons, btn.selected = false := by
      simp [dateChange]
    refine ⟨?_, ?_, ?_, ?_, ?_, ?_⟩
    · simp only [dateChange, List.map_map]
      exact h.times
    · simp [dateChange, hnone, joinComma]
    · simp [dateChange, hnone]
    · intro t
      rw [highlighted_iff]
      constructor
      · intro ht
        simp [dateChange, hnone] at ht
      · rintro ⟨btn, hbtn, -, hselected⟩
        rw [hunselected btn hbtn] at hselected
        cases hselected
    · intro btn hbtn hselected
      rw [hunselected btn hbtn] at hselected
      cases hselected
    · rw [List.filter_eq_nil_iff.mpr fun btn hbtn => by simp [hunselected btn hbtn]]
      exact Nat.zero_le _

theorem slotStatus_agrees (h : p.SelectionAgrees) (answer : Body) (minutes : Nat) :
    (p.slotStatus answer minutes).SelectionAgrees ↔
      ∀ slots workerCount, answer = .bookedSlots slots workerCount →
        (p.received slots workerCount).StaysEnabled minutes := by
  unfold slotStatus
  split
  · rename_i slots workerCount
    rw [(h.toListed.received slots workerCount).updateSlotButtons_iff]
    constructor
    · rintro ⟨-, hstays⟩ slots' workerCount' hanswer
      obtain ⟨rfl, rfl⟩ := Body.bookedSlots.inj hanswer
      exact hstays
    · intro hstays
      exact ⟨(h.toListed.agrees_iff.mp h).1, hstays slots workerCount rfl⟩
  · rename_i hother
    refine ⟨fun _ slots workerCount hanswer => ?_, fun _ => h⟩
    exact absurd hanswer (hother slots workerCount)

theorem click_agrees (h : p.SelectionAgrees) (k : Nat) : (p.click k).SelectionAgrees := by
  have hconsistent := click_consistent h.consistent k
  have hlisted : (p.click k).Listed := by
    refine ⟨hconsistent.times, hconsistent.hidden, ?_, hconsistent.shown⟩
    unfold click
    split
    · exact h.listed
    rename_i btn hk
    simp only
    split
    · exact h.listed
    split
    · exact h.listed
    split
    · exact h.listed.filter _
    rename_i hselected
    split
    · exact h.listed
    · -- the button was not highlighted, and no other button has its time
      rw [List.nodup_append]
      refine ⟨h.listed, List.nodup_singleton _, ?_⟩
      intro t ht u hu htu
      obtain rfl := List.mem_singleton.mp hu
      obtain ⟨j, other, hj, htime, hother⟩ := (h.shown t).mp ht
      obtain rfl := h.consistent.index_unique hj hk (htime.trans htu)
      rw [hk] at hj
      exact hselected (Option.some.inj hj ▸ hother)
  refine hlisted.agrees_iff.mpr ⟨hconsistent.limit, ?_⟩
  intro b hb hselected
  unfold click at hb
  split at hb
  · exact h.enabled b hb hselected
  rename_i btn hk
  simp only at hb
  split at hb
  · exact h.enabled b hb hselected
  split at hb
  · exact h.enabled b hb hselected
  rename_i hdisabled
  split at hb
  · rcases List.mem_or_eq_of_mem_set hb with hold | rfl
    · exact h.enabled b hold hselected
    · cases hselected
  split at hb
  · exact h.enabled b hb hselected
  · rcases List.mem_or_eq_of_mem_set hb with hold | rfl
    · exact h.enabled b hold hselected
    · simpa using hdisabled

end Events

end SlotPicker

namespace LivePage

/-- The events that take no picked slot away. A service goes only while more are checked than
slots are picked, the date changes only while none is picked, and what the service or an
answer changes leaves the picked slots free. -/
def Harmless (answers : Nat → Text → Body) (p : LivePage) : PageEvent → Prop
  | .service i minutes =>
    let count := (p.checked.modify i not).count true
    i < p.checked.length → p.picker.selectedSlots.length ≤ count ∧
      (p.picker.page.dateInput ≠ [] → (p.picker.withServices count).StaysEnabled minutes)
  | .date _ => p.picker.selectedSlots = []
  | .answer k minutes =>
    ∀ id date slots workerCount, p.traffic.inFlight[k]? = some (id, date) →
      answers id date = .bookedSlots slots workerCount →
      (p.picker.received slots workerCount).StaysEnabled minutes
  | .click _ => True

variable {answers : Nat → Text → Body} {p : LivePage}

theorem step_agrees (h : p.picker.SelectionAgrees) (e : PageEvent) :
    (p.step answers e).picker.SelectionAgrees ↔ p.Harmless answers e := by
  cases e with
  | service i minutes =>
    simp only [step, Harmless]
    split
    · rename_i hi
      rw [SlotPicker.serviceChange_agrees h]
      exact ⟨fun hboth _ => hboth, fun himp => himp hi⟩
    · rename_i hi
      exact ⟨fun _ hlt => absurd hlt hi, fun _ => h⟩
  | date value => exact SlotPicker.dateChange_agrees h value
  | answer k minutes =>
    simp only [step, Harmless]
    split
    · rename_i id date hk
      rw [SlotPicker.slotStatus_agrees h]
      constructor
      · intro hstays id' date' slots workerCount hk' hanswer
        obtain ⟨rfl, rfl⟩ := Prod.mk.inj (Option.some.inj (hk.symm.trans hk'))
        exact hstays slots workerCount hanswer
      · intro hstays slots workerCount hanswer
        exact hstays id date slots workerCount hk hanswer
    · rename_i hk
      refine ⟨fun _ id date slots workerCount hk' => ?_, fun _ => h⟩
      rw [hk] at hk'
      cases hk'
  | click k => exact ⟨fun _ => trivial, fun _ => SlotPicker.click_agrees h k⟩

theorem load_agrees (todayDate date : Text) (checked : List Bool) :
    (load todayDate date checked).picker.SelectionAgrees := by
  have hunselected : ∀ btn ∈ (load todayDate date checked).picker.buttons,
      btn.selected = false := by
    simp [load]
  refine ⟨?_, rfl, List.nodup_nil, ?_, ?_, ?_⟩
  · simp [load, Function.comp_def]
  · intro t
    rw [SlotPicker.highlighted_iff]
    constructor
    · intro ht
      cases ht
    · rintro ⟨btn, hbtn, -, hselected⟩
      rw [hunselected btn hbtn] at hselected
      cases hselected
  · intro btn hbtn hselected
    rw [hunselected btn hbtn] at hselected
    cases hselected
  · rw [List.filter_eq_nil_iff.mpr fun btn hbtn => by simp [hunselected btn hbtn]]
    exact Nat.zero_le _

/-- The three agree in every state the page goes through exactly when no event takes a picked
slot away. -/
theorem selection_agrees (answers : Nat → Text → Body) (todayDate date : Text)
    (checked : List Bool) (evs : List PageEvent) :
    (∀ pre, pre <+: evs →
      ((load todayDate date checked).after answers pre).picker.SelectionAgrees) ↔
    ∀ pre e, pre ++ [e] <+: evs →
      ((load todayDate date checked).after answers pre).Harmless answers e :=
  foldl_always_iff (step answers) (fun p => p.picker.SelectionAgrees)
    (load_agrees todayDate date checked) fun _ e h => step_agrees h e

/-- A service is checked, 10:00 is picked, and the date is cleared. -/
def datedPick : List PageEvent := [.service 0 480, .answer 0 480, .click 6, .date []]

theorem picked_slot_outlives_date : ¬ ∀ (answers : Nat → Text → Body) (todayDate date : Text)
    (checked : List Bool) (evs : List PageEvent),
    ((load todayDate date checked).after answers evs).picker.SelectionAgrees := by
  intro h
  have hhidden := (h (fun _ _ => .bookedSlots [] 1) "2030-01-01".toList "2030-01-01".toList
    [false] datedPick).hidden
  exact absurd hhidden (by decide +kernel)

end LivePage

end Gloora
