import Gloora.Lib.LetterCase
import Gloora.Lib.Rounding
import Gloora.Lib.Sorting
import Gloora.TimeFields
import Mathlib.Data.Prod.Lex

/-!
# Recommendation by distance

The handler of /recommend as a whole: its two queries, the columns it reads by name, the
distances and the sort. It stops at the first query when a category is given, and at the first
salon when there is none; `recommend` is what remains of it.
-/

namespace Gloora
set_option autoImplicit false

open PyText LetterCase Binary64 Rounding Sorting Runs

inductive SqlValue where
  | null
  | integer (n : Int)
  | real (x : Double)
  | text (s : Text)
deriving DecidableEq

namespace SqlValue

def ofText : Option Text → SqlValue
  | none => .null
  | some s => .text s

def ofReal : Option Double → SqlValue
  | none => .null
  | some x => .real x

def ofInteger : Option Int → SqlValue
  | none => .null
  | some n => .integer n

def truthy : SqlValue → Bool
  | .null => false
  | .integer n => n != 0
  | .real x => x != .fin 0
  | .text s => !s.isEmpty

/-- `float(value)`, unless it raises an exception. -/
def toFloat : SqlValue → Option Double
  | .null => none
  | .integer n => some (ofDecimal (decide (n < 0)) n.natAbs 0)
  | .real x => some x
  | .text s => pyFloat s

end SqlValue

/-- A `sqlite3.Row`: the columns of a query with their values. -/
abbrev Row := List (Text × SqlValue)

/-- A row of `salons_data` in the order of the schema. No handler writes `price`. -/
def salonRow (id : Nat) (r : Salon) : Row :=
  [("id".toList, .integer id), ("salon_name".toList, .text r.salonName),
    ("address".toList, .ofText r.address), ("city".toList, .text r.city),
    ("state".toList, .text r.state), ("lat".toList, .ofReal r.lat), ("lng".toList, .ofReal r.lng),
    ("contact".toList, .text r.contact), ("status".toList, .text r.status),
    ("owner_username".toList, .text r.ownerUsername),
    ("owner_id".toList, match r.ownerId with | none => .text [] | some n => .integer n),
    ("email".toList, .text r.email), ("price".toList, .real (.fin 0)),
    ("pass_key".toList, .text r.passKey), ("rating_total".toList, .integer r.ratingTotal),
    ("rating_count".toList, .integer r.ratingCount), ("image".toList, .ofText r.image),
    ("worker_count".toList, .ofInteger r.workerCount)]

/-- `row[name]` -/
def Row.item (row : Row) (name : String) : Except Text SqlValue :=
  match row.lookup name.toList with
  | none => .error "IndexError".toList
  | some value => .ok value

def tableNames : List String :=
  ["users_data", "salons_data", "services", "salon_services", "slot_reminders", "slot_data"]

/-- `SELECT * FROM table WHERE condition` for a table of salons, then `fetchall`. -/
def Db.selectSalons (db : Db) (table : String) (condition : Row → Bool) : Except Text (List Row) :=
  if tableNames.contains table then
    .ok ((db.salons.rows.map fun r => salonRow r.1 r.2).filter condition)
  else .error "OperationalError".toList

/-- A salon as the page gets it: `dict(s)` with the two keys that are added. -/
structure NearbySalon where
  row : Row
  imagePath : SqlValue
  distanceKm : Option ℚ

/-- What /recommend rests on: the distance of two places, unless the computation raises an
exception, the LIKE conditions of its first query, and the rule for a Σ in lower case. -/
structure Finder where
  haversine : Double → Double → Double → Double → Option ℚ
  like : Text → Row → Bool
  finalSigma : Text → Text → Bool

section Handler
variable (F : Finder) (lat lon : Double)

/-- The two coordinates of a row, if both are truthy. -/
def coordinates (row : Row) : Except Text (Option (SqlValue × SqlValue)) := do
  let a ← row.item "lat"
  if !a.truthy then return none
  let b ← row.item "lng"
  return if b.truthy then some (a, b) else none

/-- `distance_km`; an exception on the way gives `None`. -/
def distanceKm (row : Row) : Option ℚ :=
  match coordinates row with
  | .error _ | .ok none => none
  | .ok (some (a, b)) =>
    a.toFloat.bind fun x => b.toFloat.bind fun y => (F.haversine lat lon x y).map (roundTo 2)

def nearbySalon (row : Row) : Except Text NearbySalon := do
  let imagePath ← row.item "image_path"
  return { row, imagePath, distanceKm := distanceKm F lat lon row }

/-- The key `(d is None, d)`; it is never asked to compare two times `None`. -/
def distanceKey (s : NearbySalon) : Bool ×ₗ ℚ :=
  toLex (s.distanceKm.isNone, s.distanceKm.getD 0)

/-- The rows of the queries; those for the category fall back on all salons. -/
def fetchSalons (db : Db) (category : Text) : Except Text (List Row) :=
  if category.isEmpty then db.selectSalons "salons_data" fun _ => true
  else do
    let salons ← db.selectSalons "salons" (F.like (lower F.finalSigma category))
    if salons.isEmpty then db.selectSalons "salons_data" fun _ => true else return salons

/-- The list that /recommend passes to its page. -/
def recommendedSalons (db : Db) (category : Option Text) : Except Text (List NearbySalon) := do
  let salons ← fetchSalons F db (category.getD [])
  let salonsList ← salons.mapM (nearbySalon F lat lon)
  return sortedBy distanceKey salonsList

/-- The reply of /recommend to a request with both coordinates. -/
def recommendPage (db : Db) (s : Session) (category : Option Text) : Outcome :=
  match recommendedSalons F lat lon db category with
  | .error exception => raise db s exception
  | .ok _ => renderTemplate db s "show_salon.html"

end Handler

section Outcomes
variable {F : Finder} {lat lon : Double} {db : Db} {s : Session} {category : Option Text}

theorem recommendedSalons_category (h : category.getD [] ≠ []) :
    recommendedSalons F lat lon db category = .error "OperationalError".toList := by
  have hgiven : (category.getD []).isEmpty = false := by simpa using h
  simp only [recommendedSalons, fetchSalons, hgiven]
  rfl

/-- No salon has a column `image_path`. -/
theorem nearbySalon_salonRow (id : Nat) (r : Salon) :
    nearbySalon F lat lon (salonRow id r) = .error "IndexError".toList := rfl

theorem fetchSalons_all (h : category.getD [] = []) :
    fetchSalons F db (category.getD []) =
      .ok (db.salons.rows.map fun r => salonRow r.1 r.2) := by
  have hselect : fetchSalons F db (category.getD []) =
      .ok ((db.salons.rows.map fun r => salonRow r.1 r.2).filter fun _ => true) := by
    rw [h]
    rfl
  rw [hselect, List.filter_true]

theorem recommendedSalons_all (h : category.getD [] = []) :
    recommendedSalons F lat lon db category =
      if db.salons.rows.isEmpty then .ok [] else .error "IndexError".toList := by
  rw [recommendedSalons, fetchSalons_all h]
  cases db.salons.rows with
  | nil => simp [bind, Except.bind, pure, Except.pure, sortedBy]
  | cons r rest =>
    simp only [List.map_cons, List.mapM_cons, bind, Except.bind, nearbySalon_salonRow]
    rfl

/-- The handler as the server runs it. -/
theorem recommend_eq (F : Finder) (db : Db) (s : Session) (latText lonText category : Option Text) :
    recommend db s latText lonText category =
      match latText.bind pyFloat, lonText.bind pyFloat with
      | some lat, some lon => recommendPage F lat lon db s category
      | _, _ => redirectTo db s "show_salons" "Location not provided." "error" := by
  unfold recommend
  cases hlat : latText.bind pyFloat with
  | none => simp
  | some lat =>
    cases hlon : lonText.bind pyFloat with
    | none => simp
    | some lon =>
      by_cases hcategory : category.getD [] = []
      · simp only [recommendPage, recommendedSalons_all hcategory, hcategory]
        cases db.salons.rows <;> rfl
      · have hgiven : (category.getD []).isEmpty = false := by simpa using hcategory
        simp only [recommendPage, recommendedSalons_category hcategory, hgiven]
        rfl

end Outcomes

section Nearest

/-- The salons to be shown: the matching ones, or all if there are none or no category. -/
def wantedSalons (matching : Text → Salon → Bool) (db : Db) (category : Text) :
    List (Nat × Salon) :=
  let found := db.salons.rows.filter fun r => matching category r.2
  if category.isEmpty || found.isEmpty then db.salons.rows else found

/-- A list of salons in the order of their distances, with each wanted salon once. -/
structure NearestFirst (F : Finder) (lat lon : Double) (wanted : List (Nat × Salon))
    (shown : List NearbySalon) : Prop where
  nodup : (shown.map NearbySalon.row).Nodup
  complete : (shown.map NearbySalon.row).Perm (wanted.map fun r => salonRow r.1 r.2)
  distance : ∀ d ∈ shown, ∀ id r, d.row = salonRow id r →
    d.distanceKm = r.lat.bind fun x => r.lng.bind fun y => (F.haversine lat lon x y).map (roundTo 2)
  ordered : shown.Pairwise fun a b => ∀ y ∈ b.distanceKm, ∃ x ∈ a.distanceKm, x ≤ y

/-- A request with both coordinates is answered, and with the wanted salons, nearest first. -/
def RecommendsNearest (F : Finder) (matching : Text → Salon → Bool) (lat lon : Double) (db : Db)
    (s : Session) (latText lonText category : Option Text) : Prop :=
  (recommend db s latText lonText category).body = .page "show_salon.html".toList ∧
    ∃ shown, recommendedSalons F lat lon db category = .ok shown ∧
      NearestFirst F lat lon (wantedSalons matching db (category.getD [])) shown

theorem recommends_nearest_iff (F : Finder) (matching : Text → Salon → Bool) {lat lon : Double}
    (db : Db) (s : Session) {latText lonText : Option Text} (category : Option Text)
    (hlat : latText.bind pyFloat = some lat) (hlon : lonText.bind pyFloat = some lon) :
    RecommendsNearest F matching lat lon db s latText lonText category ↔
      category.getD [] = [] ∧ db.salons.rows = [] := by
  constructor
  · rintro ⟨-, shown, hshown, -⟩
    by_cases hcategory : category.getD [] = []
    · refine ⟨hcategory, ?_⟩
      rw [recommendedSalons_all hcategory] at hshown
      by_contra hrows
      rw [if_neg (by simpa using hrows)] at hshown
      cases hshown
    · rw [recommendedSalons_category hcategory] at hshown
      cases hshown
  · rintro ⟨hcategory, hrows⟩
    have hshown : recommendedSalons F lat lon db category = .ok [] := by
      rw [recommendedSalons_all hcategory, hrows]
      rfl
    refine ⟨?_, [], hshown, ?_⟩
    · rw [recommend_eq F, hlat, hlon]
      simp only [recommendPage, hshown]
      rfl
    · have hwanted : wantedSalons matching db (category.getD []) = [] := by
        simp [wantedSalons, hcategory, hrows]
      rw [hwanted]
      exact ⟨.nil, .nil, by simp, .nil⟩

/-- Before the first salon is registered. -/
theorem recommends_nearest_iff_empty :
    RecommendsNearest ⟨fun _ _ _ _ => some 0, fun _ _ => false, fun _ _ => false⟩
      (fun _ _ => false) (.fin (25 * 2 ^ 1073)) (.fin (155 * 2 ^ 1073)) initAllDatabases {}
      (some "12.5".toList) (some "77.5".toList) none := by
  apply (recommends_nearest_iff _ _ _ _ none (by decide +kernel) (by decide +kernel)).mpr
  exact ⟨rfl, rfl⟩

/-- Any salon at all. -/
theorem recommend_fails_with_salon :
    ¬ ∀ (es : List Event) (σ : Sys), Run (Step plain) Sys.init es σ →
      ∀ (F : Finder) (matching : Text → Salon → Bool) (lat lon : Double) (s : Session)
        (latText lonText category : Option Text), latText.bind pyFloat = some lat →
          lonText.bind pyFloat = some lon → IsFinite lat → IsFinite lon →
            RecommendsNearest F matching lat lon σ.db s latText lonText category := by
  intro h
  have hpage := (h _ opened (play_steps plain Sys.init (opening "1"))
    ⟨fun _ _ _ _ => some 0, fun _ _ => false, fun _ _ => false⟩ (fun _ _ => false)
    (.fin (25 * 2 ^ 1073)) (.fin (155 * 2 ^ 1073)) {} (some "12.5".toList) (some "77.5".toList) none
    (by decide +kernel) (by decide +kernel) trivial trivial).1
  have hbody : (recommend opened.db {} (some "12.5".toList) (some "77.5".toList) none).body =
      .error "IndexError".toList := by decide +kernel
  rw [hbody] at hpage
  cases hpage

end Nearest

end Gloora
