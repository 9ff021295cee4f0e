import Gloora.Lib.Rounding
import Gloora.Lib.Sorting
import Gloora.Lib.LetterCase

/-!
# The ranking model

`recommend_salons` of model.py, on exact numbers and with any function for the distance of two
places. A record that is ranked gets the keys `distance` and `rank_score`; the program never
reads what stood there before, so that a `Shop` has neither.
-/

namespace Gloora
set_option autoImplicit false

open PyText LetterCase Rounding Sorting

/-- A record of the list that is ranked; `ref` tells it from the others. -/
structure Shop (ι : Type) where
  ref : ι
  lat : ℚ
  lon : ℚ
  category : Text
  rating : Option ℚ
  bookings : Option ℚ

structure RankedShop (ι : Type) extends Shop ι where
  distance : ℚ
  rankScore : ℚ

/-- What the model rests on: the distance of two places, and the rule for a Σ in lower case. -/
structure Geography where
  haversine : ℚ → ℚ → ℚ → ℚ → ℚ
  finalSigma : Text → Text → Bool

/-- The arguments of `recommend_salons` besides the list. -/
structure Inquiry where
  userLat : ℚ
  userLon : ℚ
  category : Text
  radiusKm : ℚ

def normalize (value maxValue : ℚ) : Except Text ℚ :=
  if maxValue = 0 then .error "ZeroDivisionError".toList
  else .ok (max 0 (min 1 (value / maxValue)))

section Model
variable {ι : Type} (G : Geography) (q : Inquiry)

def shopDistance (shop : Shop ι) : ℚ := G.haversine q.userLat q.userLon shop.lat shop.lon

/-- `category.lower() in shop["category"].lower()` -/
def categoryMatch (shop : Shop ι) : ℚ :=
  if lower G.finalSigma q.category <:+: lower G.finalSigma shop.category then 1 else 0

def rankShop (shop : Shop ι) : Except Text (RankedShop ι) := do
  let distance := shopDistance G q shop
  let distanceShare ← normalize distance q.radiusKm
  let distanceScore := 1 - distanceShare
  let ratingScore ← normalize (shop.rating.getD 3) 5
  let popularityScore ← normalize (shop.bookings.getD 10) 100
  let finalScore := 45 / 100 * distanceScore + 30 / 100 * ratingScore +
    15 / 100 * popularityScore + 10 / 100 * categoryMatch G q shop
  return { shop with distance := roundTo 2 distance, rankScore := roundTo 4 finalScore }

/-- The loop of `recommend_salons`. -/
def nearbyShops : List (Shop ι) → Except Text (List (RankedShop ι))
  | [] => .ok []
  | shop :: rest =>
    if shopDistance G q shop ≤ q.radiusKm then do
      let ranked ← rankShop G q shop
      let nearby ← nearbyShops rest
      return ranked :: nearby
    else nearbyShops rest

def recommendSalons (salons : List (Shop ι)) : Except Text (List (RankedShop ι)) := do
  let nearby ← nearbyShops G q salons
  return sortedByDesc RankedShop.rankScore nearby

end Model

section Scores
variable {ι : Type} {G : Geography} {q : Inquiry} {a b : Shop ι} {salons : List (Shop ι)}
  {r : RankedShop ι}

def share (value maxValue : ℚ) : ℚ := max 0 (min 1 (value / maxValue))

theorem normalize_eq {value maxValue : ℚ} (h : maxValue ≠ 0) :
    normalize value maxValue = .ok (share value maxValue) := if_neg h

theorem share_nonneg (value maxValue : ℚ) : 0 ≤ share value maxValue := le_max_left _ _

theorem share_le_one (value maxValue : ℚ) : share value maxValue ≤ 1 :=
  max_le zero_le_one (min_le_left _ _)

theorem share_mono {value value' maxValue : ℚ} (hmax : 0 < maxValue) (h : value ≤ value') :
    share value maxValue ≤ share value' maxValue := by
  have hquotient : value / maxValue ≤ value' / maxValue := div_le_div_of_nonneg_right h hmax.le
  exact max_le_max_left 0 (min_le_min_left 1 hquotient)

/-- The weighted final score. -/
def finalScore (G : Geography) (q : Inquiry) (shop : Shop ι) : ℚ :=
  45 / 100 * (1 - share (shopDistance G q shop) q.radiusKm) +
    30 / 100 * share (shop.rating.getD 3) 5 + 15 / 100 * share (shop.bookings.getD 10) 100 +
    10 / 100 * categoryMatch G q shop

def scored (G : Geography) (q : Inquiry) (shop : Shop ι) : RankedShop ι :=
  { shop with
    distance := roundTo 2 (shopDistance G q shop)
    rankScore := roundTo 4 (finalScore G q shop) }

def within (G : Geography) (q : Inquiry) (salons : List (Shop ι)) : List (Shop ι) :=
  salons.filter fun shop => shopDistance G q shop ≤ q.radiusKm

/-- `a` is no farther than `b` and has at least its rating, its bookings and its match. -/
structure Dominates (G : Geography) (q : Inquiry) (a b : Shop ι) : Prop where
  distance : G.haversine q.userLat q.userLon a.lat a.lon ≤
    G.haversine q.userLat q.userLon b.lat b.lon
  rating : b.rating.getD 3 ≤ a.rating.getD 3
  bookings : b.bookings.getD 10 ≤ a.bookings.getD 10
  category : categoryMatch G q b ≤ categoryMatch G q a

theorem categoryMatch_mem (G : Geography) (q : Inquiry) (shop : Shop ι) :
    0 ≤ categoryMatch G q shop ∧ categoryMatch G q shop ≤ 1 := by
  unfold categoryMatch
  split <;> norm_num

/-- The four weights add up to 1. -/
theorem finalScore_mem (G : Geography) (q : Inquiry) (shop : Shop ι) :
    0 ≤ finalScore G q shop ∧ finalScore G q shop ≤ 1 := by
  have hdistance := share_nonneg (shopDistance G q shop) q.radiusKm
  have hdistance' := share_le_one (shopDistance G q shop) q.radiusKm
  have hrating := share_nonneg (shop.rating.getD 3) 5
  have hrating' := share_le_one (shop.rating.getD 3) 5
  have hbookings := share_nonneg (shop.bookings.getD 10) 100
  have hbookings' := share_le_one (shop.bookings.getD 10) 100
  obtain ⟨hmatch, hmatch'⟩ := categoryMatch_mem G q shop
  unfold finalScore
  constructor <;> linarith

theorem finalScore_mono (hradius : 0 < q.radiusKm) (h : Dominates G q a b) :
    finalScore G q b ≤ finalScore G q a := by
  have hdistance : share (shopDistance G q a) q.radiusKm ≤ share (shopDistance G q b) q.radiusKm :=
    share_mono hradius h.distance
  have hrating := share_mono (by norm_num : (0 : ℚ) < 5) h.rating
  have hbookings := share_mono (by norm_num : (0 : ℚ) < 100) h.bookings
  have hmatch := h.category
  unfold finalScore
  linarith

theorem rankScore_mem (G : Geography) (q : Inquiry) (shop : Shop ι) :
    0 ≤ (scored G q shop).rankScore ∧ (scored G q shop).rankScore ≤ 1 := by
  obtain ⟨hlow, hhigh⟩ := finalScore_mem G q shop
  have hround := roundTo_mem_Icc (a := 0) (b := 1) 4 (by simpa using hlow) (by simpa using hhigh)
  simpa [scored] using hround

theorem rankScore_mono (hradius : 0 < q.radiusKm) (h : Dominates G q a b) :
    (scored G q b).rankScore ≤ (scored G q a).rankScore :=
  roundTo_mono 4 (finalScore_mono hradius h)

theorem rankShop_eq (hradius : q.radiusKm ≠ 0) (shop : Shop ι) :
    rankShop G q shop = .ok (scored G q shop) := by
  have hfive : (5 : ℚ) ≠ 0 := by norm_num
  have hhundred : (100 : ℚ) ≠ 0 := by norm_num
  simp only [rankShop, normalize_eq hradius, normalize_eq hfive, normalize_eq hhundred, bind,
    Except.bind]
  rfl

theorem nearbyShops_eq (hradius : q.radiusKm ≠ 0) (salons : List (Shop ι)) :
    nearbyShops G q salons = .ok ((within G q salons).map (scored G q)) := by
  induction salons with
  | nil => rfl
  | cons shop rest ih =>
    by_cases hnear : shopDistance G q shop ≤ q.radiusKm
    · simp [nearbyShops, within, hnear, rankShop_eq hradius, ih, bind, Except.bind, pure,
        Except.pure]
    · simpa [nearbyShops, within, hnear] using ih

/-- The order in which the salons within the radius are returned. -/
def ranking (G : Geography) (q : Inquiry) (salons : List (Shop ι)) : List (RankedShop ι) :=
  sortedByDesc RankedShop.rankScore ((within G q salons).map (scored G q))

theorem recommendSalons_eq (hradius : q.radiusKm ≠ 0) (salons : List (Shop ι)) :
    recommendSalons G q salons = .ok (ranking G q salons) := by
  rw [recommendSalons, nearbyShops_eq hradius]
  rfl

end Scores

section Result
variable {ι : Type} {G : Geography} {q : Inquiry} {salons : List (Shop ι)}
  {result : List (RankedShop ι)} {r a b : RankedShop ι}

theorem map_toShop_scored (G : Geography) (q : Inquiry) (salons : List (Shop ι)) :
    (salons.map (scored G q)).map RankedShop.toShop = salons := by
  rw [List.map_map]
  exact List.map_id _

theorem ranking_perm (G : Geography) (q : Inquiry) (salons : List (Shop ι)) :
    ((ranking G q salons).map RankedShop.toShop).Perm (within G q salons) := by
  have hperm := (sortedBy_perm (fun a => OrderDual.toDual (RankedShop.rankScore a))
    ((within G q salons).map (scored G q))).map RankedShop.toShop
  rw [map_toShop_scored] at hperm
  exact hperm

theorem eq_scored_of_mem_ranking (h : r ∈ ranking G q salons) : r = scored G q r.toShop := by
  obtain ⟨shop, -, rfl⟩ := List.mem_map.mp (mem_sortedBy.mp h)
  rfl

theorem ranking_pairwise (G : Geography) (q : Inquiry) (salons : List (Shop ι)) :
    (ranking G q salons).Pairwise fun a b => b.rankScore ≤ a.rankScore :=
  sortedBy_pairwise (fun a => OrderDual.toDual (RankedShop.rankScore a)) _

theorem pair_sublist_ranking (h : [b, a].Sublist (ranking G q salons))
    (hle : b.rankScore ≤ a.rankScore) :
    b.rankScore = a.rankScore ∧ [b.toShop, a.toShop].Sublist salons := by
  rcases pair_sublist_sortedBy h with hlt | ⟨heq, hsub⟩
  · exact absurd hle (not_le.mpr (OrderDual.toDual_lt_toDual.mp hlt))
  · refine ⟨OrderDual.toDual_inj.mp heq, ?_⟩
    have hshops := hsub.map RankedShop.toShop
    rw [map_toShop_scored] at hshops
    exact hshops.trans List.filter_sublist

/-- Ranked once, the salons are all near and stand in their order. -/
theorem ranking_ranking (G : Geography) (q : Inquiry) (salons : List (Shop ι)) :
    ranking G q ((ranking G q salons).map RankedShop.toShop) = ranking G q salons := by
  have hnear : within G q ((ranking G q salons).map RankedShop.toShop) =
      (ranking G q salons).map RankedShop.toShop := by
    apply List.filter_eq_self.mpr
    intro shop hshop
    exact (List.mem_filter.mp ((ranking_perm G q salons).mem_iff.mp hshop)).2
  have hscored : ((ranking G q salons).map RankedShop.toShop).map (scored G q) =
      ranking G q salons := by
    have hsame : ∀ r ∈ ranking G q salons, (scored G q ∘ RankedShop.toShop) r = id r :=
      fun r hr => (eq_scored_of_mem_ranking hr).symm
    rw [List.map_map, List.map_congr_left hsame, List.map_id]
  rw [ranking, hnear, hscored]
  exact sortedBy_sortedBy _ _

theorem recommend_salons_sound (G : Geography) (q : Inquiry) (salons : List (Shop ι))
    (hradius : 0 < q.radiusKm) :
    ∃ result, recommendSalons G q salons = .ok result ∧
      (result.map RankedShop.toShop).Perm
        (salons.filter fun shop =>
          G.haversine q.userLat q.userLon shop.lat shop.lon ≤ q.radiusKm) ∧
      (∀ a ∈ result, 0 ≤ a.rankScore ∧ a.rankScore ≤ 1) ∧
      result.Pairwise (fun a b => b.rankScore ≤ a.rankScore) ∧
      (∀ a ∈ result, ∀ b ∈ result, Dominates G q a.toShop b.toShop →
        b.rankScore ≤ a.rankScore ∧
        ([b, a].Sublist result →
          b.rankScore = a.rankScore ∧ [b.toShop, a.toShop].Sublist salons)) ∧
      recommendSalons G q (result.map RankedShop.toShop) = .ok result := by
  refine ⟨ranking G q salons, recommendSalons_eq hradius.ne' salons, ranking_perm G q salons,
    ?_, ranking_pairwise G q salons, ?_, ?_⟩
  · intro a ha
    rw [eq_scored_of_mem_ranking ha]
    exact rankScore_mem G q a.toShop
  · intro a ha b hb hdominates
    have hle : b.rankScore ≤ a.rankScore := by
      rw [eq_scored_of_mem_ranking ha, eq_scored_of_mem_ranking hb]
      exact rankScore_mono hradius hdominates
    exact ⟨hle, fun hbefore => pair_sublist_ranking hbefore hle⟩
  · have hagain := recommendSalons_eq (G := G) hradius.ne'
      ((ranking G q salons).map RankedShop.toShop)
    exact hagain.trans (congrArg Except.ok (ranking_ranking G q salons))

theorem recommend_salons_sound_seven :
    ∃ result : List (RankedShop Nat),
      recommendSalons ⟨fun a b c d => |a - c| + |b - d|, fun _ _ => false⟩
        ⟨0, 0, "spa".toList, 7⟩ [⟨1, 1, 2, "Nails".toList, some 4, none⟩,
          ⟨2, 9, 9, "Spa".toList, none, none⟩, ⟨3, 2, 2, "Day Spa".toList, none, some 80⟩] =
        .ok result ∧
      result.Pairwise fun a b => b.rankScore ≤ a.rankScore := by
  obtain ⟨result, hresult, -, -, hpairwise, -⟩ := recommend_salons_sound
    ⟨fun a b c d => |a - c| + |b - d|, fun _ _ => false⟩ ⟨0, 0, "spa".toList, 7⟩
    [⟨1, 1, 2, "Nails".toList, some 4, none⟩, ⟨2, 9, 9, "Spa".toList, none, none⟩,
      ⟨3, 2, 2, "Day Spa".toList, none, some 80⟩] (by norm_num)
  exact ⟨result, hresult, hpairwise⟩

end Result

end Gloora
