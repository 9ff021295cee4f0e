import Gloora.BookingSpec

/-!
# The labels of half hours

Capacity is counted by comparing the labels of half hours as texts. Each minute of the day has
one label, so labels agree exactly when the clock times do.
-/

namespace Gloora
set_option autoImplicit false

open PyText Calendar

/-- Each of `n` half hours from minute `m` on starts before the end of the year 9999, on the
day `strptime` takes for a clock time. -/
def SlotsFit (m n : Nat) : Prop := ∀ i < n, clockInstant m + i * 30 < endOfTime

/-- The labels of `n` half hours from minute `m` of the day, wrapping at midnight. -/
structure HalfHours (m n : Nat) (slots : List Text) : Prop where
  length : slots.length = n
  label : ∀ i < n, slots[i]? = some (hhmm ((m + 30 * i) % 1440))
  parses : ∀ i slot, slots[i]? = some slot → strptimeClock slot = some ((m + 30 * i) % 1440)
  joined : n ≠ 0 → splitComma (joinComma slots) = slots
  again : ∀ first, slots.head? = some first → generateRequiredSlots first n = .ok slots
  distinct : slots.Nodup ↔ n ≤ 48

section Labels
variable {s : Text} {m n : Nat}

theorem generateRequiredSlots_fits (h : strptimeClock s = some m) (hfits : SlotsFit m n) :
    generateRequiredSlots s n = .ok (slotLabels m n) :=
  generateRequiredSlots_ok.mpr ⟨m, h, hfits, rfl⟩

theorem generateRequiredSlots_overflow (h : strptimeClock s = some m) (hfits : ¬ SlotsFit m n) :
    generateRequiredSlots s n = .error "OverflowError".toList := by
  cases hslots : generateRequiredSlots s n with
  | ok slots =>
    obtain ⟨m', hclock, hrepr, -⟩ := generateRequiredSlots_ok.mp hslots
    obtain rfl := Option.some.inj (h.symm.trans hclock)
    exact absurd hrepr hfits
  | error e =>
    simp only [generateRequiredSlots, h, slotAt_eq] at hslots
    rw [mapM_guard_error hslots]

theorem slotLabels_halfHours (hm : m < 1440) (hfits : SlotsFit m n) :
    HalfHours m n (slotLabels m n) where
  length := slotLabels_length m n
  label := by
    intro i hi
    rw [slotLabels_getElem? hi, Option.some_inj, hhmm_eq_iff, Nat.mod_mod]
  parses := by
    intro i slot hslot
    have hi : i < n := by
      rw [← slotLabels_length m n]
      exact (List.getElem?_eq_some_iff.mp hslot).1
    rw [slotLabels_getElem? hi] at hslot
    obtain rfl := Option.some.inj hslot
    exact strptimeClock_hhmm _
  joined := fun hn => splitComma_slotLabels m hn
  again := by
    intro first hfirst
    rw [List.head?_eq_getElem?] at hfirst
    have hn : 0 < n := by
      rw [← slotLabels_length m n]
      exact (List.getElem?_eq_some_iff.mp hfirst).1
    rw [slotLabels_getElem? hn] at hfirst
    obtain rfl := Option.some.inj hfirst
    apply generateRequiredSlots_fits _ hfits
    rw [strptimeClock_hhmm, Nat.mul_zero, Nat.add_zero, Nat.mod_eq_of_lt hm]
  distinct := slotLabels_nodup_iff

end Labels

/-- The labels of a clock time depend on its minute alone, as far as the calendar reaches; a
half hour beyond its end is an exception. -/
theorem slots_canonical {s : Text} {m : Nat} (h : strptimeClock s = some m) (n : Nat) :
    (SlotsFit m n → ∃ slots, HalfHours m n slots ∧
      ∀ s', strptimeClock s' = some m → generateRequiredSlots s' n = .ok slots) ∧
    (¬ SlotsFit m n → generateRequiredSlots s n = .error "OverflowError".toList) := by
  constructor
  · intro hfits
    exact ⟨slotLabels m n, slotLabels_halfHours (strptimeClock_lt h) hfits,
      fun s' hs' => generateRequiredSlots_fits hs' hfits⟩
  · exact generateRequiredSlots_overflow h

theorem slots_canonical_unpadded : ∃ slots, HalfHours 545 49 slots ∧
    generateRequiredSlots "09:05".toList 49 = .ok slots := by
  have hunpadded : strptimeClock "9:5".toList = some 545 := by decide +kernel
  have hpadded : strptimeClock "09:05".toList = some 545 := by decide +kernel
  obtain ⟨slots, hlabels, hequal⟩ := (slots_canonical hunpadded 49).1 (by
    intro i hi
    unfold clockInstant endOfTime
    omega)
  exact ⟨slots, hlabels, hequal _ hpadded⟩

/-- Enough services reach past the year 9999. -/
theorem slots_past_calendar : ¬ ∀ (s : Text) (m n : Nat), strptimeClock s = some m →
    ∃ slots, generateRequiredSlots s n = .ok slots ∧ slots.length = n := by
  intro h
  have hmidnight : strptimeClock "00:00".toList = some 0 := by decide +kernel
  obtain ⟨slots, hok, -⟩ := h _ 0 142006273 hmidnight
  have hfits : ¬ SlotsFit 0 142006273 := by
    intro hfits
    have hlast := hfits 142006272 (by omega)
    unfold clockInstant endOfTime at hlast
    omega
  rw [generateRequiredSlots_overflow hmidnight hfits] at hok
  cases hok

end Gloora
