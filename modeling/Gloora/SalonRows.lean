import Mathlib.Algebra.Order.Field.Rat
import Mathlib.Tactic.Linarith
import Gloora.Interleavings
import Gloora.ProgramEffects
import Gloora.Statements

/-!
# The rows of `salons_data`

Whatever the interleaving of statements, a rating that is lost still leaves the two columns of
the rating within their bounds: a request only writes back what it has read, one rating later.
-/

namespace Gloora
set_option autoImplicit false

open PyText Keyed Runs Transactions

structure Salon.Sound (r : Salon) : Prop where
  workers : ∃ count, r.workerCount = some count ∧ 1 ≤ count
  status : r.status = "ON".toList ∨ r.status = "OFF".toList
  nonneg : 0 ≤ r.ratingCount
  low : r.ratingCount ≤ r.ratingTotal
  high : r.ratingTotal ≤ 5 * r.ratingCount

def SalonsSound (db : Db) : Prop := ∀ id r, (id, r) ∈ db.salons.rows → r.Sound

/-- The values a statement may bind to keep every row sound. -/
def Write.Sound : Write → Prop
  | .insertSalon r => r.Sound
  | .setRating _ total count => 0 ≤ count ∧ count ≤ total ∧ total ≤ 5 * count
  | .setStatus _ status => status = "ON".toList ∨ status = "OFF".toList
  | .setWorkerCount _ count => 1 ≤ count
  | _ => True

theorem SalonsSound.setSalon {db : Db} {id : Nat} {f : Salon → Salon} (h : SalonsSound db)
    (hf : ∀ r, r.Sound → (f r).Sound) : SalonsSound (db.setSalon id f) := by
  intro k r hr
  obtain ⟨r', hr', rfl⟩ := Table.mem_update.mp hr
  split
  · exact hf r' (h k r' hr')
  · exact h k r' hr'

theorem exec_sound {db db' : Db} {w : Write} (hdb : SalonsSound db) (hw : w.Sound)
    (h : db.exec w = some db') : SalonsSound db' := by
  rcases exec_cases h with rfl | rfl
  · exact hdb
  cases w with
  | insertSalon r =>
    intro id r' hr'
    rcases Table.mem_insert.mp hr' with hold | ⟨-, rfl⟩
    · exact hdb id r' hold
    · exact hw
  | setRating id total count =>
    obtain ⟨hnonneg, hlow, hhigh⟩ := hw
    exact hdb.setSalon fun r hr => ⟨hr.workers, hr.status, hnonneg, hlow, hhigh⟩
  | setStatus id status =>
    exact hdb.setSalon fun r hr => ⟨hr.workers, hw, hr.nonneg, hr.low, hr.high⟩
  | setWorkerCount id count =>
    exact hdb.setSalon fun r hr => ⟨⟨count, rfl, hw⟩, hr.status, hr.nonneg, hr.low, hr.high⟩
  | deleteSalon id => exact fun k r hr => hdb k r (Table.mem_delete.mp hr).1
  | _ => exact hdb

theorem workerCountField_pos (field : Option Text) : 1 ≤ workerCountField field := by
  unfold workerCountField
  split
  · exact Int.le_refl 1
  · split
    · exact Int.le_refl 1
    · split <;> omega

theorem newSalon_sound (P : Platform) (env : Env) (s : Session) (form : SalonForm) :
    (newSalon P env s form).Sound where
  workers := ⟨_, rfl, workerCountField_pos _⟩
  status := .inl rfl
  nonneg := Int.le_refl 0
  low := Int.le_refl 0
  high := Int.le_refl 0

/-- A request that has read sound rows writes sound values. -/
theorem executes_sound {P : Platform} {env : Env} {s : Session} {req : Request} {w : Write}
    (h : req.executes P env s SalonsSound w) : w.Sound := by
  cases req with
  | registerSalon form =>
    rcases h with rfl | ⟨_, rfl⟩ | ⟨_, rfl⟩
    · exact newSalon_sound P env s form
    · trivial
    · trivial
  | rateSalon id field =>
    obtain ⟨view, salon, hview, hrow, rating, -, hlow, hhigh, rfl⟩ := h
    have hsound := hview id salon hrow
    have := hsound.nonneg
    have := hsound.low
    have := hsound.high
    exact ⟨by omega, by omega, by omega⟩
  | toggleVerify id passKey =>
    obtain ⟨view, salon, -, -, rfl⟩ := h
    unfold Write.Sound flipped
    simp only
    split
    · exact .inr rfl
    · exact .inl rfl
  | updateWorkerCount id field =>
    obtain ⟨count, hcount, rfl⟩ := h
    exact hcount
  | auth page action form =>
    obtain ⟨u, rfl⟩ := h
    trivial
  | resetPassword password =>
    obtain ⟨mobile, hash, rfl⟩ := h
    trivial
  | paymentSuccess form =>
    obtain ⟨_, _, _, _, _, _, rfl⟩ := h
    trivial
  | deleteUser id =>
    obtain rfl : w = .deleteUser id := h
    trivial
  | deleteSalon id =>
    obtain rfl : w = .deleteSalon id := h
    trivial
  | deleteService id =>
    obtain rfl : w = .deleteService id := h
    trivial
  | deleteBooking id =>
    obtain rfl : w = .deleteBooking id := h
    trivial
  | _ => exact False.elim h

section Average

/-- Python's `a / b`, exactly. -/
def trueDiv (a b : Int) : Except Text ℚ :=
  if b = 0 then .error "ZeroDivisionError".toList else .ok (a / b)

/-- `avg_rating` of `show_salons` before it is rounded. -/
def avgRating (r : Salon) : Except Text ℚ :=
  if r.ratingCount ≠ 0 ∧ 0 < r.ratingCount then trueDiv r.ratingTotal r.ratingCount else .ok 0

theorem Salon.Sound.avgRating_ok {r : Salon} (h : r.Sound) :
    ∃ avg, avgRating r = .ok avg ∧ (avg = 0 ∨ (1 ≤ avg ∧ avg ≤ 5)) := by
  by_cases hrated : r.ratingCount ≠ 0 ∧ 0 < r.ratingCount
  · refine ⟨(r.ratingTotal : ℚ) / r.ratingCount, ?_, .inr ⟨?_, ?_⟩⟩
    · simp only [avgRating, trueDiv, if_pos hrated, hrated.1, if_false]
    · have hcount : (0 : ℚ) < r.ratingCount := by exact_mod_cast hrated.2
      rw [le_div_iff₀ hcount, one_mul]
      exact_mod_cast h.low
    · have hcount : (0 : ℚ) < r.ratingCount := by exact_mod_cast hrated.2
      rw [div_le_iff₀ hcount]
      exact_mod_cast h.high
  · exact ⟨0, if_neg hrated, .inl rfl⟩

end Average

theorem salonsSound_run {P : Platform} {db : Db} {jar : Nat → List Session} {evs : List ServerMove}
    {σ : Server} (h : Run (PoolStep P) (Server.start db jar) evs σ) (hdb : SalonsSound db) :
    SalonsSound σ.store.db := by
  apply (run_keeps hdb ?_ (fun _ _ _ hdb hw hexec => exec_sound hdb hw hexec) h).1.1
  intro a
  exact (program_keeps P a.env a.cookie SalonsSound a.request).mono fun _ => executes_sound

theorem salonsSound_init : SalonsSound initAllDatabases := by
  intro id r hr
  simp [initAllDatabases] at hr

theorem salon_rows_sound (P : Platform) (jar : Nat → List Session) (evs : List ServerMove)
    (σ : Server) (h : Run (PoolStep P) (Server.start initAllDatabases jar) evs σ) :
    ∀ id r, (id, r) ∈ σ.store.db.salons.rows →
      r.Sound ∧ ∃ avg, avgRating r = .ok avg ∧ (avg = 0 ∨ (1 ≤ avg ∧ avg ≤ 5)) := by
  intro id r hr
  have hsound := salonsSound_run h salonsSound_init id r hr
  exact ⟨hsound, hsound.avgRating_ok⟩

/-- A salon is registered, then two ratings of it read the same counters. -/
def racingRatings : Interleaving where
  tables := initAllDatabases
  choices := comes 1 (openSalon "2" ["cut"] ["100"]) :: works 0 8 ++
    [comes 2 (.rateSalon 1 (some ['5'])), comes 3 (.rateSalon 1 (some ['3']))] ++
    works 1 1 ++ works 2 1 ++ works 1 3 ++ works 2 3
  served := by decide +kernel

theorem salon_rows_sound_racing : racingRatings.final.store.db.salons.HasKey 1 ∧
    ∀ id r, (id, r) ∈ racingRatings.final.store.db.salons.rows →
      r.Sound ∧ ∃ avg, avgRating r = .ok avg ∧ (avg = 0 ∨ (1 ≤ avg ∧ avg ≤ 5)) :=
  ⟨by decide +kernel, salon_rows_sound plain _ _ _ racingRatings.run⟩

end Gloora
