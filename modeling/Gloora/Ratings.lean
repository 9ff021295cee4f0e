import Gloora.Interleavings
import Gloora.ProgramEffects
import Gloora.Statements

/-!
# Ratings that are lost

A rating is added to the counters its request has read, so it takes effect when no other
rating of the salon is committed between its SELECT and its commit.
-/

namespace Gloora
set_option autoImplicit false

open PyText Keyed Runs Threads Transactions

/-- The number a request rates the salon with. -/
def Request.rating? (salonId : Nat) : Request → Option Int
  | .rateSalon id field => if id = salonId then some ((field.bind pyInt).getD 0) else none
  | _ => none

def committedRating? (salonId : Nat) (m : ServerMove) : Option Int :=
  match m.act with
  | .calls (.commit _) (.ok _) => m.input.request.rating? salonId
  | _ => none

/-- The texts of a reply do not depend on the tables it is formed over. -/
def thanks (reply : Db → Outcome) : Bool :=
  (reply initAllDatabases).flashes = [⟨"Thank you for rating!".toList, "success".toList⟩]

def acceptedRating? (salonId : Nat) (m : ServerMove) : Option Int :=
  match m.act with
  | .ends reply => if thanks reply then m.input.request.rating? salonId else none
  | _ => none

def acceptedRatings (salonId : Nat) (evs : List ServerMove) : List Int :=
  evs.filterMap (acceptedRating? salonId)

/-- No other rating of the salon was committed since the request that commits one now has read
the counters. -/
def RatesUndisturbed (salonId : Nat) (pre : List ServerMove) (m : ServerMove) : Prop :=
  committedRating? salonId m = none ∨
    Since (fun x => x.id = m.id ∧ isRead x = true) (fun x => committedRating? salonId x = none) pre

instance (salonId : Nat) (pre : List ServerMove) (m : ServerMove) :
    Decidable (RatesUndisturbed salonId pre m) := by
  unfold RatesUndisturbed
  infer_instance

section Program
variable {s : Session} {salonId : Nat} {field : Option Text}
  {l : List (Command Write × Except Text Db)}

/-- A rating commits one UPDATE, computed from the row it has read. -/
theorem rateSalon_commits {k : Nat} {next : Except Text Db → Program}
    (h : (rateSalonProgram s salonId field).Follows l (.call (.commit k) next)) :
    ∃ d₀ d₁ salon, (salonId, salon) ∈ d₀.salons.rows ∧
      l = [(.read, .ok d₀), (.write 0 (.setRating salonId
        (salon.ratingTotal + (field.bind pyInt).getD 0) (salon.ratingCount + 1)), .ok d₁)] := by
  unfold rateSalonProgram at h
  simp only at h
  split at h
  · obtain ⟨-, hdone⟩ := Prog.follows_done.mp h
    cases hdone
  cases reads_follows h with
  | read view h =>
    split at h
    · obtain ⟨-, hdone⟩ := Prog.follows_done.mp h
      cases hdone
    · rename_i salon hsalon
      cases saves_follows h with
      | wrote d => exact ⟨view, d, salon, Table.find?_eq_some.mp hsalon, rfl⟩

/-- A finished rating has committed once when it thanks the user, and never otherwise. -/
theorem rateSalon_ended {reply : Db → Outcome}
    (h : (rateSalonProgram s salonId field).Follows l (.done reply)) :
    l.countP isCommit = if thanks reply then 1 else 0 := by
  unfold rateSalonProgram at h
  simp only at h
  split at h
  · obtain ⟨rfl, hreply⟩ := Prog.follows_done.mp h
    cases hreply
    rfl
  cases reads_follows h with
  | refused e => rfl
  | read view h =>
    split at h
    · obtain ⟨rfl, hreply⟩ := Prog.follows_done.mp h
      cases hreply
      rfl
    · cases saves_follows h with
      | unwritten e => rfl
      | uncommitted d e => rfl
      | saved d d' => rfl

end Program

/-- `rating_total` and `rating_count` of a salon. -/
def Salon.counters (r : Salon) : Int × Int := (r.ratingTotal, r.ratingCount)

def rate (n : Int) (v : Int × Int) : Int × Int := (v.1 + n, v.2 + 1)

theorem rating?_eq_some {req : Request} {salonId : Nat} {n : Int} :
    req.rating? salonId = some n ↔
      ∃ field, req = .rateSalon salonId field ∧ n = (field.bind pyInt).getD 0 := by
  constructor
  · intro h
    unfold Request.rating? at h
    split at h
    · rename_i id field
      split at h
      · rename_i hid
        exact ⟨field, by rw [hid], (Option.some.inj h).symm⟩
      · cases h
    · cases h
  · rintro ⟨field, rfl, rfl⟩
    simp [Request.rating?]

theorem program_rateSalon {P : Platform} {a : Incoming} {salonId : Nat} {field : Option Text}
    (h : a.request = .rateSalon salonId field) :
    (site P).program a = rateSalonProgram a.cookie salonId field := by
  change program P a.env a.cookie a.request = _
  rw [h]
  rfl

/-- The counters of a salon, with the requests that rate it. -/
def ratingCell (P : Platform) (salonId : Nat) : Cell (site P) (Int × Int) where
  value db := (db.salons.find? salonId).map Salon.counters
  update a := (a.request.rating? salonId).map rate
  Valid db := salonId ≤ db.salons.seq
  issues a w := a.request.issues a.cookie w
  valid_exec := @exec_known salonId
  issued := program_issues P
  others := by
    intro a db w db' v hupdate hissues hvalid hexec hv
    obtain ⟨r, hr, rfl⟩ := Option.map_eq_some_iff.mp hv
    have hspares : w.Spares Salon.counters salonId := by
      apply issues_spares hissues
      · intro field hreq
        simp [hreq, Request.rating?] at hupdate
      · exact fun _ _ _ _ => rfl
      · exact fun _ _ _ _ => rfl
    obtain ⟨r₀, hr₀, heq⟩ := exec_spares hexec hspares hvalid (Table.find?_eq_some.mp hr)
    rw [Table.find?_eq_some.mpr hr₀, Option.map_some, heq]
  updates := by
    intro a g l k next hupdate hfollows
    obtain ⟨n, hn, rfl⟩ := Option.map_eq_some_iff.mp hupdate
    obtain ⟨field, hreq, rfl⟩ := rating?_eq_some.mp hn
    rw [program_rateSalon hreq] at hfollows
    obtain ⟨d₀, d₁, salon, hsalon, rfl⟩ := rateSalon_commits hfollows
    refine ⟨d₀, 0, _, d₁, salon.counters, rfl, by rw [Table.find?_eq_some.mpr hsalon]; rfl, ?_⟩
    intro db db' v hvalid hexec hv
    obtain rfl := (Option.some.inj hexec).symm
    obtain ⟨r, hr, rfl⟩ := Option.map_eq_some_iff.mp hv
    obtain ⟨r₀, hr₀, rfl⟩ := Table.mem_update.mp (Table.find?_eq_some.mp hr)
    rw [Table.find?_eq_some.mpr hr₀]
    exact ⟨by simp [Salon.counters, rate], rfl⟩

section Runs
variable {P : Platform} {db : Db} {jar : Nat → List Session} {evs : List ServerMove} {σ : Server}
  {salonId : Nat} {r₀ r : Salon}

theorem commits_rating (m : ServerMove) :
    (ratingCell P salonId).commits m = (committedRating? salonId m).map rate := by
  obtain ⟨i, a, act⟩ := m
  rcases act with _ | ⟨c, answer⟩ | reply
  · rfl
  · cases c with
    | commit k => cases answer <;> rfl
    | _ => rfl
  · rfl

theorem foldl_rate (ns : List Int) (v : Int × Int) :
    (ns.map rate).foldl (fun u g => g u) v = (v.1 + ns.sum, v.2 + ns.length) := by
  induction ns generalizing v with
  | nil => simp
  | cons n ns ih =>
    rw [List.map_cons, List.foldl_cons, ih]
    simp only [rate, List.sum_cons, List.length_cons, Nat.cast_add, Nat.cast_one, Prod.mk.injEq]
    constructor <;> omega

/-- What the request counts for when each of its ratings has this weight. -/
def Incoming.weight (salonId : Nat) (weight : Int → Int) (a : Incoming) : Int :=
  ((a.request.rating? salonId).map weight).getD 0

theorem sum_committed (weight : Int → Int) (i : Nat) (a : Incoming)
    (l : List (Command Write × Except Text Db)) (reply : Db → Outcome) :
    ((served i a l ++ [(⟨i, a, .ends reply⟩ : ServerMove)]).map fun m =>
      ((committedRating? salonId m).map weight).getD 0).sum =
      l.countP isCommit * a.weight salonId weight := by
  induction l with
  | nil => simp [served, committedRating?]
  | cons x l ih =>
    obtain ⟨c, answer⟩ := x
    simp only [served, List.map_cons, List.cons_append, List.sum_cons, List.countP_cons] at ih ⊢
    cases c with
    | commit k =>
      cases answer with
      | ok d =>
        simp only [committedRating?, isCommit, Incoming.weight, if_true, Option.map_none,
          Option.getD_none, Nat.cast_add, Nat.cast_one, add_mul, one_mul, zero_add] at ih ⊢
        rw [ih, add_comm]
      | error e => simpa [committedRating?, isCommit] using ih
    | _ => simpa [committedRating?, isCommit] using ih

theorem sum_accepted (weight : Int → Int) (i : Nat) (a : Incoming)
    (l : List (Command Write × Except Text Db)) (reply : Db → Outcome) :
    ((served i a l ++ [(⟨i, a, .ends reply⟩ : ServerMove)]).map fun m =>
      ((acceptedRating? salonId m).map weight).getD 0).sum =
      if thanks reply then a.weight salonId weight else 0 := by
  induction l with
  | nil =>
    simp only [served, acceptedRating?, Incoming.weight]
    cases hthanks : thanks reply <;> simp [hthanks]
  | cons x l ih => simpa [served, acceptedRating?] using ih

/-- Each request has committed as many ratings as it has been thanked for. -/
theorem request_sum (h : Run (PoolStep P) (Server.start db jar) evs σ) (hquiet : σ.Quiet)
    (weight : Int → Int) (i : Nat) :
    ((movesOf i evs).map fun m => ((committedRating? salonId m).map weight).getD 0).sum =
      ((movesOf i evs).map fun m => ((acceptedRating? salonId m).map weight).getD 0).sum := by
  cases traced h i with
  | fresh _ _ hmoves => rw [hmoves]; rfl
  | running _ _ _ _ hthread _ _ =>
    rw [hquiet i] at hthread
    cases hthread
  | ended a l reply _ _ hfollows hmoves =>
    rw [hmoves, sum_committed, sum_accepted]
    cases hrating : a.request.rating? salonId with
    | none => simp [Incoming.weight, hrating]
    | some n =>
      obtain ⟨field, hreq, rfl⟩ := rating?_eq_some.mp hrating
      rw [show (site P).service.program a = _ from program_rateSalon hreq] at hfollows
      rw [rateSalon_ended hfollows]
      cases thanks reply <;> simp

theorem sum_getD (f : ServerMove → Option Int) (weight : Int → Int) (evs : List ServerMove) :
    (evs.map fun m => ((f m).map weight).getD 0).sum = ((evs.filterMap f).map weight).sum := by
  induction evs with
  | nil => rfl
  | cons m evs ih => cases hm : f m <;> simp [hm, ih]

theorem committed_accepted (salonId : Nat) (h : Run (PoolStep P) (Server.start db jar) evs σ)
    (hquiet : σ.Quiet) (weight : Int → Int) :
    ((evs.filterMap (committedRating? salonId)).map weight).sum =
      ((acceptedRatings salonId evs).map weight).sum := by
  rw [acceptedRatings, ← sum_getD, ← sum_getD, sum_moves _ (ids_lt h), sum_moves _ (ids_lt h)]
  exact Finset.sum_congr rfl fun i _ => request_sum h hquiet weight i

theorem undisturbed_rating {pre : List ServerMove} {m : ServerMove}
    (h : RatesUndisturbed salonId pre m) : (ratingCell P salonId).Undisturbed pre m := by
  intro hcommits
  rw [commits_rating] at hcommits
  rcases h with hnone | ⟨before, x, post, hpre, hread, hquiet⟩
  · rw [hnone] at hcommits
    cases hcommits
  · refine ⟨before, x, post, hpre, hread, ?_⟩
    intro y hy
    rw [commits_rating, hquiet y hy]
    rfl

/-- Once all requests have ended, every accepted rating counts, when each was read and committed
with no other in between. -/
theorem ratings_add_up (h : Run (PoolStep P) (Server.start db jar) evs σ) (hquiet : σ.Quiet)
    (hcond : Throughout (RatesUndisturbed salonId) evs) (hstart : (salonId, r₀) ∈ db.salons.rows)
    (hend : (salonId, r) ∈ σ.store.db.salons.rows) :
    r.ratingCount = r₀.ratingCount + (acceptedRatings salonId evs).length ∧
      r.ratingTotal = r₀.ratingTotal + (acceptedRatings salonId evs).sum := by
  have hvalue : (ratingCell P salonId).value σ.store.db = some r.counters := by
    simp only [ratingCell, Table.find?_eq_some.mpr hend, Option.map_some]
  obtain ⟨v₀, hv₀, hfold⟩ := Cell.value_after h (Table.le_seq hstart)
    (fun pre m post hevs => undisturbed_rating (hcond pre m post hevs)) hvalue
  have hv₀' : v₀ = r₀.counters := by
    simpa [ratingCell, Table.find?_eq_some.mpr hstart] using hv₀.symm
  have hcommits : evs.filterMap (ratingCell P salonId).commits =
      (evs.filterMap (committedRating? salonId)).map rate := by
    rw [List.map_filterMap]
    exact List.filterMap_congr fun m _ => commits_rating m
  rw [hcommits, foldl_rate, hv₀'] at hfold
  have hsum := committed_accepted salonId h hquiet id
  have hcount := committed_accepted salonId h hquiet fun _ => 1
  simp only [List.map_id, List.map_const', List.sum_replicate, nsmul_eq_mul, mul_one]
    at hsum hcount
  obtain ⟨htotal, hlength⟩ := Prod.mk.inj hfold
  exact ⟨by rw [hlength, hcount]; rfl, by rw [htotal, hsum]; rfl⟩

end Runs

def rates (browser : Nat) (salonId : Nat) (rating : String) : Choice Incoming :=
  comes browser (.rateSalon salonId (some rating.toList))

def ratingsInTurn : Interleaving where
  tables := openedSalon
  choices := [rates 3 1 "5", rates 4 1 "3"] ++ works 0 4 ++ works 1 4
  served := by decide +kernel

theorem ratings_add_up_inTurn : ∃ r₀ r, (1, r₀) ∈ openedSalon.salons.rows ∧
    (1, r) ∈ ratingsInTurn.final.store.db.salons.rows ∧
    acceptedRatings 1 ratingsInTurn.events = [5, 3] ∧
    r.ratingCount = r₀.ratingCount + (acceptedRatings 1 ratingsInTurn.events).length ∧
      r.ratingTotal = r₀.ratingTotal + (acceptedRatings 1 ratingsInTurn.events).sum := by
  have hquiet := quiet_of_lt ratingsInTurn.run (by decide +kernel)
  have hcond : Throughout (RatesUndisturbed 1) ratingsInTurn.events := by decide +kernel
  obtain ⟨r₀, hr₀⟩ : openedSalon.salons.HasKey 1 := by decide +kernel
  obtain ⟨r, hr⟩ : ratingsInTurn.final.store.db.salons.HasKey 1 := by decide +kernel
  exact ⟨r₀, r, hr₀, hr, by decide +kernel,
    ratings_add_up ratingsInTurn.run hquiet hcond hr₀ hr⟩

def ratingsAtOnce : Interleaving where
  tables := openedSalon
  choices := [rates 3 1 "5", rates 4 1 "3"] ++ works 0 1 ++ works 1 1 ++ works 0 3 ++ works 1 3
  served := by decide +kernel

theorem rating_lost : ¬ ∀ (P : Platform) (evs₀ : List Event) (σ₀ : Sys) (evs : List ServerMove)
    (σ : Server) (salonId : Nat) (r₀ r : Salon), Run (Step P) Sys.init evs₀ σ₀ →
    Run (PoolStep P) (Server.start σ₀.db fun _ => []) evs σ → σ.Quiet →
    (∀ m ∈ evs, (m.input.request.rating? salonId).isSome = true ∧ failed m = false) →
    (salonId, r₀) ∈ σ₀.db.salons.rows → (salonId, r) ∈ σ.store.db.salons.rows →
    r.ratingCount = r₀.ratingCount + (acceptedRatings salonId evs).length ∧
      r.ratingTotal = r₀.ratingTotal + (acceptedRatings salonId evs).sum := by
  intro h
  have hquiet := quiet_of_lt ratingsAtOnce.run (by decide +kernel)
  obtain ⟨r₀, hr₀⟩ : openedSalon.salons.HasKey 1 := by decide +kernel
  obtain ⟨r, hr⟩ : ratingsAtOnce.final.store.db.salons.HasKey 1 := by decide +kernel
  have hcount := (h plain _ _ _ _ 1 r₀ r (play_steps plain Sys.init (opening "1"))
    ratingsAtOnce.run hquiet (by decide +kernel) hr₀ hr).1
  have hfound := Table.find?_eq_some.mpr hr
  have hfound₀ := Table.find?_eq_some.mpr hr₀
  have hlost : ((ratingsAtOnce.final.store.db.salons.find? 1).map Salon.ratingCount) = some 1 ∧
      (openedSalon.salons.find? 1).map Salon.ratingCount = some 0 ∧
      (acceptedRatings 1 ratingsAtOnce.events).length = 2 := by decide +kernel
  rw [hfound, hfound₀] at hlost
  simp at hlost
  omega

end Gloora
