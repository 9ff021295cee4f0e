import Gloora.Interleavings
import Gloora.ProgramEffects
import Gloora.Statements

/-!
# Toggling a salon

A toggle flips the status its request has read, and only with the passkey of the salon. A
session that has toggled the salon before is turned away before its key is looked at.
-/

namespace Gloora
set_option autoImplicit false

open PyText Keyed Runs Threads Transactions

def Request.toggles (salonId : Nat) : Request → Bool
  | .toggleVerify id _ => id == salonId
  | _ => false

/-- A toggle that carries the passkey with this hash. -/
def Request.unlocks (P : Platform) (passKey : Text) (salonId : Nat) : Request → Bool
  | .toggleVerify id (some key) => id == salonId && P.checkPasswordHash passKey key
  | _ => false

def committedToggle (salonId : Nat) (m : ServerMove) : Bool :=
  match m.act with
  | .calls (.commit _) (.ok _) => m.input.request.toggles salonId
  | _ => false

/-- A request arrives that carries the passkey. -/
def keyedToggle (P : Platform) (passKey : Text) (salonId : Nat) (m : ServerMove) : Bool :=
  m.isArrival && m.input.request.unlocks P passKey salonId

/-- A toggle with the passkey comes from a session that has not toggled the salon yet, none of
its statements is refused, and no other toggle of the salon is committed between its SELECT
and its commit. -/
def ServedAlone (P : Platform) (passKey : Text) (salonId : Nat) (pre : List ServerMove)
    (m : ServerMove) : Prop :=
  m.input.request.unlocks P passKey salonId = false ∨
    (m.input.cookie.verifiedSalonToggleId ≠ some salonId ∧ refused m = false ∧
      (committedToggle salonId m = false ∨
        Since (fun x => x.id = m.id ∧ isRead x = true)
          (fun x => committedToggle salonId x = false) pre))

instance (P : Platform) (passKey : Text) (salonId : Nat) (pre : List ServerMove)
    (m : ServerMove) : Decidable (ServedAlone P passKey salonId pre m) := by
  unfold ServedAlone
  infer_instance

section Program
variable {P : Platform} {s : Session} {salonId : Nat} {key : Option Text}
  {l : List (Command Write × Except Text Db)}

/-- A toggle commits one UPDATE, which flips the status of the row whose passkey it carries. -/
theorem toggleVerify_commits {k : Nat} {next : Except Text Db → Program}
    (h : (toggleVerifyProgram P s salonId key).Follows l (.call (.commit k) next)) :
    ∃ d₀ d₁ salon key', key = some key' ∧ (salonId, salon) ∈ d₀.salons.rows ∧
      P.checkPasswordHash salon.passKey key' = true ∧
      l = [(.read, .ok d₀), (.write 0 (.setStatus salonId (flipped salon.status)), .ok d₁)] := by
  unfold toggleVerifyProgram at h
  split at h
  · obtain ⟨-, hdone⟩ := Prog.follows_done.mp h
    cases hdone
  cases reads_follows h with
  | read view h =>
    split at h
    · obtain ⟨-, hdone⟩ := Prog.follows_done.mp h
      cases hdone
    · rename_i salon hright hsalon
      cases saves_follows h with
      | wrote d =>
        rw [hsalon] at hright
        cases key with
        | none => cases hright
        | some key' =>
          have hcheck : (!P.checkPasswordHash salon.passKey key') = false := Except.ok.inj hright
          exact ⟨view, d, salon, key', rfl, Table.find?_eq_some.mp hsalon, by simpa using hcheck,
            rfl⟩
    · obtain ⟨-, hdone⟩ := Prog.follows_done.mp h
      cases hdone

/-- A finished toggle has committed once when it carries the passkey, and never otherwise. -/
theorem toggleVerify_ended {passKey : Text} {reply : Db → Outcome}
    (h : (toggleVerifyProgram P s salonId key).Follows l (.done reply))
    (hread : ∀ d₀ rest, l = (.read, .ok d₀) :: rest →
      ∃ salon, d₀.salons.find? salonId = some salon ∧ salon.passKey = passKey)
    (hserved : (Request.toggleVerify salonId key).unlocks P passKey salonId = true →
      s.verifiedSalonToggleId ≠ some salonId ∧ l.any refusedCall = false) :
    l.countP isCommit =
      if (Request.toggleVerify salonId key).unlocks P passKey salonId then 1 else 0 := by
  unfold toggleVerifyProgram at h
  split at h
  · rename_i hverified
    obtain ⟨rfl, -⟩ := Prog.follows_done.mp h
    rw [if_neg fun hunlocks => (hserved hunlocks).1 hverified]
    rfl
  cases reads_follows h with
  | refused e =>
    have hlocked : ¬ (Request.toggleVerify salonId key).unlocks P passKey salonId = true := by
      intro hunlocks
      cases (hserved hunlocks).2
    rw [if_neg hlocked]
    rfl
  | read view hrest =>
    obtain ⟨salon, hsalon, rfl⟩ := hread view _ rfl
    simp only [hsalon] at hrest
    cases key with
    | none =>
      obtain ⟨rfl, -⟩ := Prog.follows_done.mp hrest
      rfl
    | some key =>
      cases hcheck : P.checkPasswordHash salon.passKey key with
      | false =>
        simp only [wrongPasskey, hcheck] at hrest
        obtain ⟨rfl, -⟩ := Prog.follows_done.mp hrest
        simp [Request.unlocks, hcheck, isCommit]
      | true =>
        have hunlocks : (Request.toggleVerify salonId (some key)).unlocks P salon.passKey salonId =
            true := by simp [Request.unlocks, hcheck]
        have hanswers := (hserved hunlocks).2
        simp only [wrongPasskey, hcheck] at hrest
        rw [if_pos hunlocks]
        cases saves_follows hrest with
        | unwritten e => cases hanswers
        | uncommitted d e => cases hanswers
        | saved d d' => rfl

end Program

theorem toggles_iff {req : Request} {salonId : Nat} :
    req.toggles salonId = true ↔ ∃ key, req = .toggleVerify salonId key := by
  constructor
  · intro h
    unfold Request.toggles at h
    split at h
    · rename_i id key
      exact ⟨key, by rw [beq_iff_eq.mp h]⟩
    · cases h
  · rintro ⟨key, rfl⟩
    simp [Request.toggles]

theorem toggles_of_unlocks {P : Platform} {passKey : Text} {req : Request} {salonId : Nat}
    (h : req.unlocks P passKey salonId = true) : req.toggles salonId = true := by
  unfold Request.unlocks at h
  split at h
  · exact (Bool.and_eq_true_iff.mp h).1
  · cases h

theorem program_toggleVerify {P : Platform} {a : Incoming} {salonId : Nat} {key : Option Text}
    (h : a.request = .toggleVerify salonId key) :
    (site P).program a = toggleVerifyProgram P a.cookie salonId key := by
  change program P a.env a.cookie a.request = _
  rw [h]
  rfl

/-- The status of a salon, with the requests that toggle it. -/
def toggleCell (P : Platform) (salonId : Nat) : Cell (site P) Text where
  value db := (db.salons.find? salonId).map Salon.status
  update a := if a.request.toggles salonId then some flipped else none
  Valid db := salonId ≤ db.salons.seq
  issues a w := a.request.issues a.cookie w
  valid_exec := @exec_known salonId
  issued := program_issues P
  others := by
    intro a db w db' v hupdate hissues hvalid hexec hv
    obtain ⟨r, hr, rfl⟩ := Option.map_eq_some_iff.mp hv
    have hspares : w.Spares Salon.status salonId := by
      apply issues_spares hissues
      · exact fun _ _ _ _ _ => rfl
      · intro key hreq
        simp [hreq, Request.toggles] at hupdate
      · exact fun _ _ _ _ => rfl
    obtain ⟨r₀, hr₀, heq⟩ := exec_spares hexec hspares hvalid (Table.find?_eq_some.mp hr)
    rw [Table.find?_eq_some.mpr hr₀, Option.map_some, heq]
  updates := by
    intro a g l k next hupdate hfollows
    split at hupdate
    · rename_i htoggles
      obtain rfl := Option.some.inj hupdate
      obtain ⟨key, hreq⟩ := toggles_iff.mp htoggles
      rw [program_toggleVerify hreq] at hfollows
      obtain ⟨d₀, d₁, salon, _, -, hsalon, -, rfl⟩ := toggleVerify_commits hfollows
      refine ⟨d₀, 0, _, d₁, salon.status, rfl, by rw [Table.find?_eq_some.mpr hsalon]; rfl, ?_⟩
      intro db db' v hvalid hexec hv
      obtain rfl := (Option.some.inj hexec).symm
      obtain ⟨r, hr, rfl⟩ := Option.map_eq_some_iff.mp hv
      obtain ⟨r₀, hr₀, rfl⟩ := Table.mem_update.mp (Table.find?_eq_some.mp hr)
      rw [Table.find?_eq_some.mpr hr₀]
      exact ⟨by simp, rfl⟩
    · cases hupdate

section Runs
variable {P : Platform} {db : Db} {jar : Nat → List Session} {evs : List ServerMove} {σ : Server}
  {salonId : Nat} {r₀ r : Salon}

theorem commits_toggle (m : ServerMove) : (toggleCell P salonId).commits m =
    if committedToggle salonId m then some flipped else none := by
  obtain ⟨i, a, act⟩ := m
  rcases act with _ | ⟨c, answer⟩ | reply
  · rfl
  · cases c with
    | commit k => cases answer <;> rfl
    | _ => rfl
  · rfl

/-- If the salon is there, it has this passkey, and no other salon will get its key. -/
def KeyedBy (salonId : Nat) (passKey : Text) (db : Db) : Prop :=
  salonId ≤ db.salons.seq ∧ ∀ r, (salonId, r) ∈ db.salons.rows → r.passKey = passKey

theorem exec_keyedBy {db db' : Db} {w : Write} {passKey : Text} (h : KeyedBy salonId passKey db)
    (hexec : db.exec w = some db') : KeyedBy salonId passKey db' := by
  refine ⟨exec_known salonId h.1 hexec, ?_⟩
  intro r hr
  have hspares : w.Spares Salon.passKey salonId := by
    cases w with
    | setRating k total count => exact fun _ _ => rfl
    | setStatus k status => exact fun _ _ => rfl
    | setWorkerCount k count => exact fun _ _ => rfl
    | _ => trivial
  obtain ⟨r', hr', heq⟩ := exec_spares hexec hspares h.1 hr
  rw [heq]
  exact h.2 r' hr'

/-- Every state the run reaches or shows to a request has the salon's first passkey. -/
theorem keyed_run (h : Run (PoolStep P) (Server.start db jar) evs σ)
    (hstart : (salonId, r₀) ∈ db.salons.rows) : KeyedBy salonId r₀.passKey σ.store.db ∧
      ∀ m ∈ evs, ∀ c d, m.act = .calls c (.ok d) → KeyedBy salonId r₀.passKey d := by
  have hkeyed : KeyedBy salonId r₀.passKey db :=
    ⟨Table.le_seq hstart, fun r hr => by rw [Table.mem_unique hr hstart]⟩
  have hkeep := run_keeps hkeyed (fun _ => keeps_true _)
    (fun _ _ _ hd _ hexec => exec_keyedBy hd hexec) h
  exact ⟨hkeep.1.1, hkeep.2⟩

/-- Only requests that carry the passkey commit a status. -/
theorem committed_unlocks (h : Run (PoolStep P) (Server.start db jar) evs σ)
    (hstart : (salonId, r₀) ∈ db.salons.rows) {m : ServerMove} (hm : m ∈ evs)
    (hcommit : committedToggle salonId m = true) :
    m.input.request.unlocks P r₀.passKey salonId = true := by
  obtain ⟨pre, post, t, t', -, hpre, hstep, -⟩ := h.at_mem hm
  unfold committedToggle at hcommit
  split at hcommit
  · rename_i k d hact
    obtain ⟨key, hreq⟩ := toggles_iff.mp hcommit
    obtain ⟨-, ⟨next, hthread⟩, -⟩ := step_commit hpre hstep hact
    have hfollows := follows_callsOf hpre hthread
    rw [show (site P).service.program m.input = _ from program_toggleVerify hreq] at hfollows
    obtain ⟨d₀, d₁, salon, key', rfl, hsalon, hcheck, hcalls⟩ := toggleVerify_commits hfollows
    have hmem : (Command.read, Except.ok d₀) ∈ callsOf m.id pre := by
      rw [hcalls]
      exact List.mem_cons_self
    obtain ⟨x, hx, -, hread⟩ := mem_callsOf hmem
    have hpassKey := ((keyed_run hpre hstart).2 x hx _ _ hread).2 salon hsalon
    rw [hreq]
    simp [Request.unlocks, ← hpassKey, hcheck]
  · cases hcommit

theorem countP_committed (i : Nat) (a : Incoming) (l : List (Command Write × Except Text Db))
    (reply : Db → Outcome) :
    (served i a l ++ [(⟨i, a, .ends reply⟩ : ServerMove)]).countP (committedToggle salonId) =
      if a.request.toggles salonId then l.countP isCommit else 0 := by
  induction l with
  | nil => simp [served, committedToggle]
  | cons x l ih =>
    obtain ⟨c, answer⟩ := x
    simp only [served, List.map_cons, List.cons_append, List.countP_cons] at ih ⊢
    cases htoggles : a.request.toggles salonId with
    | false =>
      rw [htoggles] at ih
      cases c <;> cases answer <;> simpa [committedToggle, htoggles] using ih
    | true =>
      rw [htoggles] at ih
      cases c <;> cases answer <;> simpa [committedToggle, htoggles, isCommit] using ih

theorem countP_keyed (passKey : Text) (i : Nat) (a : Incoming)
    (l : List (Command Write × Except Text Db)) (reply : Db → Outcome) :
    (served i a l ++ [(⟨i, a, .ends reply⟩ : ServerMove)]).countP (keyedToggle P passKey salonId) =
      if a.request.unlocks P passKey salonId then 1 else 0 := by
  have hcalls : ∀ l : List (Command Write × Except Text Db),
      (l.map fun x => (⟨i, a, .calls x.1 x.2⟩ : ServerMove)).countP
        (keyedToggle P passKey salonId) = 0 := by
    intro l
    rw [List.countP_eq_zero]
    intro m hm
    obtain ⟨x, -, rfl⟩ := List.mem_map.mp hm
    simp [keyedToggle, Move.isArrival]
  rw [served, List.cons_append, List.countP_cons, List.countP_append, hcalls]
  simp [keyedToggle, Move.isArrival]

theorem mem_served {i : Nat} {a : Incoming} {l : List (Command Write × Except Text Db)}
    {tail : List ServerMove} {x : Command Write × Except Text Db} (hx : x ∈ l)
    (hmoves : movesOf i evs = served i a l ++ tail) : ⟨i, a, .calls x.1 x.2⟩ ∈ evs := by
  have hmem : (⟨i, a, .calls x.1 x.2⟩ : ServerMove) ∈ movesOf i evs := by
    rw [hmoves]
    apply List.mem_append_left
    exact List.mem_cons_of_mem _ (List.mem_map.mpr ⟨x, hx, rfl⟩)
  exact (List.mem_filter.mp hmem).1

/-- Each request has committed one flip if it carries the passkey, and none otherwise. -/
theorem request_toggles (h : Run (PoolStep P) (Server.start db jar) evs σ) (hquiet : σ.Quiet)
    (hcond : Throughout (ServedAlone P r₀.passKey salonId) evs)
    (hstart : (salonId, r₀) ∈ db.salons.rows) (hend : (salonId, r) ∈ σ.store.db.salons.rows)
    (i : Nat) : (movesOf i evs).countP (committedToggle salonId) =
      (movesOf i evs).countP (keyedToggle P r₀.passKey salonId) := by
  cases traced h i with
  | fresh _ _ hmoves => rw [hmoves]; rfl
  | running _ _ _ _ hthread _ _ =>
    rw [hquiet i] at hthread
    cases hthread
  | ended a l reply _ _ hfollows hmoves =>
    have hcalls : callsOf i evs = l := by
      rw [callsOf, hmoves, List.filterMap_append, call?_served]
      simp [Move.call?]
    rw [hmoves, countP_committed, countP_keyed]
    cases htoggles : a.request.toggles salonId with
    | false =>
      rw [if_neg (by simp), if_neg]
      intro hunlocks
      rw [toggles_of_unlocks hunlocks] at htoggles
      cases htoggles
    | true =>
      obtain ⟨key, hreq⟩ := toggles_iff.mp htoggles
      rw [show (site P).service.program a = _ from program_toggleVerify hreq] at hfollows
      rw [if_pos rfl, hreq]
      apply toggleVerify_ended hfollows
      · intro d₀ rest hl
        have hpresent : ((toggleCell P salonId).value σ.store.db).isSome := by
          simp only [toggleCell, Table.find?_eq_some.mpr hend, Option.map_some, Option.isSome_some]
        have hsome := Cell.present_read h (Table.le_seq hstart) (hcalls.trans hl) hpresent
        obtain ⟨status, hstatus⟩ := Option.isSome_iff_exists.mp hsome
        obtain ⟨salon, hsalon, -⟩ := Option.map_eq_some_iff.mp hstatus
        have hmem := mem_served (hl ▸ List.mem_cons_self) hmoves
        exact ⟨salon, hsalon, ((keyed_run h hstart).2 _ hmem _ _ rfl).2 salon
          (Table.find?_eq_some.mp hsalon)⟩
      · intro hunlocks
        have hserved : ∀ m ∈ evs, m.input = a →
            a.cookie.verifiedSalonToggleId ≠ some salonId ∧ refused m = false := by
          intro m hm hinput
          obtain ⟨pre, post, hevs⟩ := List.append_of_mem hm
          have hm := hcond pre m post hevs
          rw [ServedAlone, hinput, hreq, hunlocks] at hm
          rcases hm with hlocked | ⟨hcookie, hanswer, -⟩
          · cases hlocked
          · exact ⟨hcookie, hanswer⟩
        have harrival : (⟨i, a, .arrives⟩ : ServerMove) ∈ evs := by
          have hmem : (⟨i, a, .arrives⟩ : ServerMove) ∈ movesOf i evs := by
            rw [hmoves]
            exact List.mem_cons_self
          exact (List.mem_filter.mp hmem).1
        refine ⟨(hserved _ harrival rfl).1, ?_⟩
        rw [List.any_eq_false]
        intro x hx
        have hanswer := (hserved _ (mem_served hx hmoves) rfl).2
        simpa [refused, Move.call?] using hanswer

theorem undisturbed_toggle (h : Run (PoolStep P) (Server.start db jar) evs σ)
    (hstart : (salonId, r₀) ∈ db.salons.rows)
    (hcond : Throughout (ServedAlone P r₀.passKey salonId) evs) :
    Throughout (toggleCell P salonId).Undisturbed evs := by
  intro pre m post hevs hcommits
  have hm : m ∈ evs := by
    rw [hevs]
    exact List.mem_append_right _ List.mem_cons_self
  rw [commits_toggle] at hcommits
  have hcommit : committedToggle salonId m = true := by
    by_contra hnot
    rw [if_neg hnot] at hcommits
    cases hcommits
  have hunlocks := committed_unlocks h hstart hm hcommit
  rcases hcond pre m post hevs with hlocked | ⟨-, -, hnone | hsince⟩
  · rw [hunlocks] at hlocked
    cases hlocked
  · rw [hcommit] at hnone
    cases hnone
  · obtain ⟨before, x, after, hpre, hread, hnone⟩ := hsince
    refine ⟨before, x, after, hpre, hread, ?_⟩
    intro y hy
    rw [commits_toggle, if_neg (Bool.eq_false_iff.mp (hnone y hy))]
    rfl

theorem commits_flipped (evs : List ServerMove) :
    evs.filterMap (toggleCell P salonId).commits =
      List.replicate (evs.countP (committedToggle salonId)) flipped := by
  induction evs with
  | nil => rfl
  | cons m evs ih =>
    have hcommits := @commits_toggle P salonId m
    cases hm : committedToggle salonId m with
    | false =>
      rw [hm] at hcommits
      rw [List.filterMap_cons_none hcommits, ih, List.countP_cons_of_neg (by simp [hm])]
    | true =>
      rw [hm] at hcommits
      rw [List.filterMap_cons_some hcommits, ih, List.countP_cons_of_pos hm, List.replicate_succ]

theorem foldl_flipped (n : Nat) (status : Text) :
    (List.replicate n flipped).foldl (fun u g => g u) status = flipped^[n] status := by
  induction n generalizing status with
  | zero => rfl
  | succ n ih => rw [List.replicate_succ, List.foldl_cons, ih, Function.iterate_succ_apply]

/-- A toggle without the passkey changes nothing. -/
theorem locked_unchanged (h : Run (PoolStep P) (Server.start db jar) evs σ)
    (hstart : (salonId, r₀) ∈ db.salons.rows) {m : ServerMove} {σ' : Server}
    (hstep : PoolStep P σ m σ') (htoggles : m.input.request.toggles salonId = true)
    (hlocked : m.input.request.unlocks P r₀.passKey salonId = false) :
    σ'.store.db = σ.store.db := by
  apply step_db hstep
  intro k d hact
  have hcommit : committedToggle salonId m = true := by
    rw [committedToggle, hact]
    exact htoggles
  rw [committed_unlocks (h.snoc hstep) hstart (by simp) hcommit] at hlocked
  cases hlocked

/-- Once all requests have ended, the status is flipped once for each toggle that carried the
passkey, and no other toggle has changed anything. -/
theorem toggles_flip (h : Run (PoolStep P) (Server.start db jar) evs σ) (hquiet : σ.Quiet)
    (hcond : Throughout (ServedAlone P r₀.passKey salonId) evs)
    (hstart : (salonId, r₀) ∈ db.salons.rows) (hend : (salonId, r) ∈ σ.store.db.salons.rows) :
    r.status = flipped^[evs.countP (keyedToggle P r₀.passKey salonId)] r₀.status ∧
      ∀ pre m post τ τ', evs = pre ++ m :: post →
        Run (PoolStep P) (Server.start db jar) pre τ → PoolStep P τ m τ' →
        m.input.request.toggles salonId = true →
        m.input.request.unlocks P r₀.passKey salonId = false → τ'.store.db = τ.store.db := by
  refine ⟨?_, fun pre m post τ τ' _ hpre hstep => locked_unchanged hpre hstart hstep⟩
  have hvalue : (toggleCell P salonId).value σ.store.db = some r.status := by
    simp only [toggleCell, Table.find?_eq_some.mpr hend, Option.map_some]
  obtain ⟨v₀, hv₀, hfold⟩ :=
    Cell.value_after h (Table.le_seq hstart) (undisturbed_toggle h hstart hcond) hvalue
  have hv₀' : v₀ = r₀.status := by
    simpa [toggleCell, Table.find?_eq_some.mpr hstart] using hv₀.symm
  have hcount : evs.countP (committedToggle salonId) =
      evs.countP (keyedToggle P r₀.passKey salonId) := by
    rw [countP_moves _ (ids_lt h), countP_moves _ (ids_lt h)]
    exact Finset.sum_congr rfl fun i _ => request_toggles h hquiet hcond hstart hend i
  rw [hfold, commits_flipped, foldl_flipped, hcount, hv₀']

end Runs

def togglesSalon (key : String) : Request := .toggleVerify 1 (some key.toList)

/-- Two browsers toggle the salon with its passkey, a third one without it. -/
def togglesInTurn : Interleaving where
  tables := openedSalon
  choices := [comes 3 (togglesSalon "1234")] ++ works 0 4 ++ [comes 5 (togglesSalon "4321")] ++
    works 1 2 ++ [comes 4 (togglesSalon "1234")] ++ works 2 4
  served := by decide +kernel

theorem toggles_flip_inTurn : ∃ r₀ r, (1, r₀) ∈ openedSalon.salons.rows ∧
    (1, r) ∈ togglesInTurn.final.store.db.salons.rows ∧
    r.status = flipped^[togglesInTurn.events.countP (keyedToggle plain r₀.passKey 1)] r₀.status ∧
      ∀ pre m post τ τ', togglesInTurn.events = pre ++ m :: post →
        Run (PoolStep plain) (Server.start openedSalon fun _ => []) pre τ →
        PoolStep plain τ m τ' → m.input.request.toggles 1 = true →
        m.input.request.unlocks plain r₀.passKey 1 = false → τ'.store.db = τ.store.db := by
  have hquiet := quiet_of_lt togglesInTurn.run (by decide +kernel)
  obtain ⟨r₀, hr₀⟩ : openedSalon.salons.HasKey 1 := by decide +kernel
  have hkey : (openedSalon.salons.find? 1).map Salon.passKey = some "1234".toList := by
    decide +kernel
  rw [Table.find?_eq_some.mpr hr₀] at hkey
  have hcond : Throughout (ServedAlone plain r₀.passKey 1) togglesInTurn.events := by
    rw [Option.some.inj hkey]
    decide +kernel
  obtain ⟨r, hr⟩ : togglesInTurn.final.store.db.salons.HasKey 1 := by decide +kernel
  exact ⟨r₀, r, hr₀, hr, toggles_flip togglesInTurn.run hquiet hcond hr₀ hr⟩

/-- A browser toggles the salon, then toggles it again with the cookie it got back. -/
def togglesTwice : Interleaving where
  tables := openedSalon
  choices := [comes 3 (togglesSalon "1234")] ++ works 0 4 ++
    [.arrives ⟨3, { verifiedSalonToggleId := some 1 }, calmly 0 "order", togglesSalon "1234"⟩] ++
    works 1 1
  served := by decide +kernel

theorem second_toggle_ignored : ¬ ∀ (P : Platform) (evs₀ : List Event) (σ₀ : Sys)
    (evs : List ServerMove) (σ : Server) (salonId : Nat) (r₀ r : Salon),
    Run (Step P) Sys.init evs₀ σ₀ → Run (PoolStep P) (Server.start σ₀.db fun _ => []) evs σ →
    σ.Quiet → (∀ m ∈ evs, m.input.request.toggles salonId = true ∧ failed m = false) →
    (salonId, r₀) ∈ σ₀.db.salons.rows → (salonId, r) ∈ σ.store.db.salons.rows →
    r.status = flipped^[evs.countP (keyedToggle P r₀.passKey salonId)] r₀.status := by
  intro h
  have hquiet := quiet_of_lt togglesTwice.run (by decide +kernel)
  obtain ⟨r₀, hr₀⟩ : openedSalon.salons.HasKey 1 := by decide +kernel
  obtain ⟨r, hr⟩ : togglesTwice.final.store.db.salons.HasKey 1 := by decide +kernel
  have hstatus := h plain _ _ _ _ 1 r₀ r (play_steps plain Sys.init (opening "1"))
    togglesTwice.run hquiet (by decide +kernel) hr₀ hr
  have hrows : (openedSalon.salons.find? 1).map (fun r => (r.passKey, r.status)) =
        some ("1234".toList, "ON".toList) ∧
      (togglesTwice.final.store.db.salons.find? 1).map Salon.status = some "OFF".toList := by
    decide +kernel
  rw [Table.find?_eq_some.mpr hr₀, Table.find?_eq_some.mpr hr] at hrows
  simp only [Option.map_some, Option.some.injEq, Prod.mk.injEq] at hrows
  obtain ⟨⟨hkey, hon⟩, hoff⟩ := hrows
  have htwice : togglesTwice.events.countP (keyedToggle plain "1234".toList 1) = 2 := by
    decide +kernel
  rw [hkey, hon, hoff, htwice] at hstatus
  revert hstatus
  decide

end Gloora
