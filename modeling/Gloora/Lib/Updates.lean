import Gloora.Lib.Transactions

/-!
# Values that are read, changed and written back

Some requests read a value of the store, compute its successor and commit the result by a
later write. `value_after` says what a run does to the value when nobody else commits such
an update between a request's read and its commit: all updates take effect, in the order
of their commits.
-/

namespace Transactions
set_option autoImplicit false

open Runs Threads

variable {A W E D α J β : Type} {V : Site A W E D α J}

/-- A value of the store with the requests that update it. The value may be absent, and what
is absent in a valid state stays absent. -/
structure Cell (V : Site A W E D α J) (β : Type) where
  value : D → Option β
  update : A → Option (β → β)
  Valid : D → Prop
  issues : A → W → Prop
  valid_exec : ∀ {d w d'}, Valid d → V.exec d w = some d' → Valid d'
  issued : ∀ a, Keeps (fun _ => True) (issues a) (V.program a)
  /-- Other requests may remove the value but do not change it. -/
  others : ∀ {a d w d' v}, update a = none → issues a w → Valid d → V.exec d w = some d' →
    value d' = some v → value d = some v
  /-- An update commits one write, computed from the value it has read. -/
  updates : ∀ {a g l k next}, update a = some g →
    (V.program a).Follows l (.call (.commit k) next) →
    ∃ d₀ j w d₁ v₀, l = [(.read, .ok d₀), (.write j w, .ok d₁)] ∧ value d₀ = some v₀ ∧
      ∀ d d' v, Valid d → V.exec d w = some d' → value d' = some v →
        v = g v₀ ∧ (value d).isSome

namespace Cell
variable (c : Cell V β)

/-- The update a move commits. -/
def commits (m : Event A W E D α) : Option (β → β) :=
  match m.act with
  | .calls (.commit _) (.ok _) => c.update m.input
  | _ => none

end Cell

def isRead (m : Event A W E D α) : Bool :=
  match m.act with
  | .calls .read _ => true
  | _ => false

namespace Cell

/-- No update was committed since the request that commits one now has read the value. -/
def Undisturbed (c : Cell V β) (pre : List (Event A W E D α)) (m : Event A W E D α) : Prop :=
  (c.commits m).isSome →
    Since (fun x => x.id = m.id ∧ isRead x = true) (fun x => (c.commits x).isNone) pre

variable {c : Cell V β} {db : D} {side : J} {σ σ' : State A W E D α J}
  {evs : List (Event A W E D α)} {m : Event A W E D α}

theorem valid_run (hvalid : c.Valid db) (h : Run (Step V.service) (Site.start db side) evs σ) :
    c.Valid σ.store.db := by
  have hexec : ∀ d w d', c.Valid d → True → V.exec d w = some d' → c.Valid d' :=
    fun _ _ _ hd _ hexec => c.valid_exec hd hexec
  exact (run_keeps hvalid (fun _ => keeps_true _) hexec h).1.1

/-- Writes that do not change the value, one after the other. -/
theorem value_writes {P : W → Prop} (hkeep : ∀ d w d' v, P w → c.Valid d → V.exec d w = some d' →
      c.value d' = some v → c.value d = some v)
    {ws : List W} (hws : ∀ w ∈ ws, P w) {d d' : D} {v : β} (hd : c.Valid d)
    (hexec : ws.foldlM V.exec d = some d') (hv : c.value d' = some v) : c.value d = some v := by
  induction ws generalizing d with
  | nil =>
    obtain rfl := Option.some.inj hexec
    exact hv
  | cons w ws ih =>
    obtain ⟨hw, hws⟩ := List.forall_mem_cons.mp hws
    rw [List.foldlM_cons] at hexec
    obtain ⟨d₁, hd₁, hrest⟩ := Option.bind_eq_some_iff.mp hexec
    exact hkeep d w d₁ v hw hd hd₁ (ih hws (c.valid_exec hd hd₁) hrest)

theorem commits_of_act {k : Nat} {d : D} (hact : m.act = .calls (.commit k) (.ok d)) :
    c.commits m = c.update m.input := by
  simp [commits, hact]

/-- A move that commits no update leaves the value alone. -/
theorem value_unchanged (h : Run (Step V.service) (Site.start db side) evs σ)
    (hvalid : c.Valid db) (hstep : Step V.service σ m σ') (hm : c.commits m = none) {v : β}
    (hv : c.value σ'.store.db = some v) : c.value σ.store.db = some v := by
  by_cases hact : ∃ k d, m.act = .calls (.commit k) (.ok d)
  · obtain ⟨k, d, hact⟩ := hact
    obtain ⟨rfl, ⟨next, hthread⟩, hexec⟩ := step_commit h hstep hact
    rw [commits_of_act hact] at hm
    exact value_writes (fun d w d' v hw hd hexec => c.others hm hw hd hexec)
      (pending_issued c.issued h hthread) (valid_run hvalid h) hexec hv
  · rwa [step_db hstep fun k d h => hact ⟨k, d, h⟩] at hv

/-- The read of an update and what has been committed since. -/
structure Tracked (c : Cell V β) (db : D) (evs : List (Event A W E D α))
    (σ : State A W E D α J) : Prop where
  value : ∀ v, c.value σ.store.db = some v → ∃ v₀, c.value db = some v₀ ∧
    v = (evs.filterMap c.commits).foldl (fun u g => g u) v₀
  current : ∀ i d₀ rest v₀ v, callsOf i evs = (.read, .ok d₀) :: rest →
    (∀ x ∈ rest, x.1 ≠ .read) →
    Since (fun x => x.id = i ∧ isRead x = true) (fun x => (c.commits x).isNone) evs →
    c.value d₀ = some v₀ → c.value σ.store.db = some v → v = v₀

theorem commits_act {g : β → β} (hm : c.commits m = some g) :
    (∃ k d, m.act = .calls (.commit k) (.ok d)) ∧ c.update m.input = some g := by
  unfold commits at hm
  split at hm
  · rename_i k d hact
    exact ⟨⟨k, d, hact⟩, hm⟩
  · cases hm

/-- A request whose first call is a read has read before this move, or reads the committed
state now. -/
theorem first_read (h : Run (Step V.service) (Site.start db side) evs σ)
    (hstep : Step V.service σ m σ') {i : Nat} {d₀ : D} {rest : List (Command W × Except E D)}
    (hcalls : callsOf i (evs ++ [m]) = (.read, .ok d₀) :: rest) :
    (d₀ = σ.store.db ∧ σ'.store.db = σ.store.db) ∨
      ∃ rest', callsOf i evs = (.read, .ok d₀) :: rest' ∧
        rest = rest' ++ (if m.id = i then m.call? else none).toList := by
  rw [callsOf_snoc] at hcalls
  cases hevs : callsOf i evs with
  | cons x xs =>
    rw [hevs] at hcalls
    obtain ⟨rfl, rfl⟩ := List.cons.inj hcalls
    exact .inr ⟨xs, rfl, rfl⟩
  | nil =>
    left
    by_cases hi : m.id = i
    · subst hi
      cases hstep with
      | arrives => simp [hevs, Move.call?] at hcalls
      | ends => simp [hevs, Move.call?] at hcalls
      | @calls i a c next r s' hthread hserves =>
        obtain ⟨⟨rfl, rfl⟩, -⟩ : (c = .read ∧ r = .ok d₀) ∧ rest = [] := by
          simpa [hevs, Move.call?] using hcalls
        have hview := ((coherent h).1 i _ hthread).view_eq (by rw [hevs, pending_nil])
        cases hserves with
        | read => exact ⟨hview, rfl⟩
    · simp [hevs, hi] at hcalls

/-- Between a read and now the value is the one read, as long as no update is committed. -/
theorem current_snoc (h : Run (Step V.service) (Site.start db side) evs σ) (hvalid : c.Valid db)
    (hprev : c.Tracked db evs σ) (hstep : Step V.service σ m σ') {i : Nat} {d₀ : D}
    {rest : List (Command W × Except E D)} {v₀ v : β}
    (hcalls : callsOf i (evs ++ [m]) = (.read, .ok d₀) :: rest) (hrest : ∀ x ∈ rest, x.1 ≠ .read)
    (hsince : Since (fun x => x.id = i ∧ isRead x = true) (fun x => (c.commits x).isNone)
      (evs ++ [m])) (hv₀ : c.value d₀ = some v₀) (hv : c.value σ'.store.db = some v) : v = v₀ := by
  rcases first_read h hstep hcalls with ⟨rfl, hdb⟩ | ⟨rest', hcalls', rfl⟩
  · rw [hdb] at hv
    exact Option.some.inj (hv.symm.trans hv₀)
  · rcases since_snoc.mp hsince with ⟨hi, hread⟩ | ⟨hbefore, hm⟩
    · -- a second read contradicts `hrest`
      unfold isRead at hread
      split at hread
      · rename_i r hact
        exact absurd rfl (hrest (.read, r) (by simp [hi, Move.call?, hact]))
      · cases hread
    · exact hprev.current i d₀ rest' v₀ v hcalls'
        (fun x hx => hrest x (List.mem_append_left _ hx)) hbefore hv₀
        (value_unchanged h hvalid hstep (Option.isNone_iff_eq_none.mp hm) hv)

theorem tracked (h : Run (Step V.service) (Site.start db side) evs σ) (hvalid : c.Valid db)
    (hcond : Throughout c.Undisturbed evs) : c.Tracked db evs σ := by
  induction h with
  | nil =>
    refine ⟨fun v hv => ⟨v, hv, rfl⟩, ?_⟩
    intro i d₀ rest v₀ v hcalls
    simp [callsOf, movesOf] at hcalls
  | @snoc es τ υ m hrun hstep ih =>
    have hprev := ih fun pre x post hes => hcond pre x (post ++ [m]) (by simp [hes])
    refine ⟨?_, fun i d₀ rest v₀ v => current_snoc hrun hvalid hprev hstep⟩
    intro v hv
    simp only [List.filterMap_append, List.foldl_append]
    cases hm : c.commits m with
    | none =>
      obtain ⟨v₀, hv₀, rfl⟩ := hprev.value v (value_unchanged hrun hvalid hstep hm hv)
      exact ⟨v₀, hv₀, by simp [hm]⟩
    | some g =>
      obtain ⟨⟨k, d, hact⟩, hupdate⟩ := commits_act hm
      obtain ⟨rfl, ⟨next, hthread⟩, hexec⟩ := step_commit hrun hstep hact
      obtain ⟨d₀, j, w, d₁, v₀, hcalls, hv₀, hwrite⟩ :=
        c.updates hupdate (follows_callsOf hrun hthread)
      have hpending : pending (callsOf m.id es) = [w] := by
        rw [hcalls]
        rfl
      rw [hpending] at hexec
      obtain ⟨rfl, hsome⟩ := hwrite _ _ v (valid_run hvalid hrun) (by simpa using hexec) hv
      obtain ⟨u, hu⟩ := Option.isSome_iff_exists.mp hsome
      have hsince := hcond es m [] rfl (by simp [hm])
      obtain rfl : u = v₀ := hprev.current m.id d₀ _ v₀ u hcalls (by simp) hsince hv₀ hu
      obtain ⟨v₁, hv₁, rfl⟩ := hprev.value u hu
      exact ⟨v₁, hv₁, by simp [hm]⟩

/-- A value that is present now was present before. -/
theorem present_before (h : Run (Step V.service) (Site.start db side) evs σ)
    (hvalid : c.Valid db) (hstep : Step V.service σ m σ')
    (hpresent : (c.value σ'.store.db).isSome) : (c.value σ.store.db).isSome := by
  obtain ⟨v, hv⟩ := Option.isSome_iff_exists.mp hpresent
  cases hm : c.commits m with
  | none => rw [value_unchanged h hvalid hstep hm hv]; rfl
  | some g =>
    obtain ⟨⟨k, d, hact⟩, hupdate⟩ := commits_act hm
    obtain ⟨rfl, ⟨next, hthread⟩, hexec⟩ := step_commit h hstep hact
    obtain ⟨d₀, j, w, d₁, v₀, hcalls, -, hwrite⟩ := c.updates hupdate (follows_callsOf h hthread)
    have hpending : pending (callsOf m.id evs) = [w] := by
      rw [hcalls]
      rfl
    rw [hpending] at hexec
    exact (hwrite _ _ v (valid_run hvalid h) (by simpa using hexec) hv).2

/-- A value that is present now was seen by every request that began with a read. -/
theorem present_read (h : Run (Step V.service) (Site.start db side) evs σ) (hvalid : c.Valid db)
    {i : Nat} {d₀ : D} {rest : List (Command W × Except E D)}
    (hcalls : callsOf i evs = (.read, .ok d₀) :: rest) (hpresent : (c.value σ.store.db).isSome) :
    (c.value d₀).isSome := by
  induction h generalizing rest with
  | nil => simp [callsOf, movesOf] at hcalls
  | snoc hrun hstep ih =>
    have hbefore := present_before hrun hvalid hstep hpresent
    rcases first_read hrun hstep hcalls with ⟨rfl, -⟩ | ⟨rest', hcalls', -⟩
    · exact hbefore
    · exact ih hcalls' hbefore

theorem value_after (h : Run (Step V.service) (Site.start db side) evs σ) (hvalid : c.Valid db)
    (hcond : Throughout c.Undisturbed evs) {v : β} (hv : c.value σ.store.db = some v) :
    ∃ v₀, c.value db = some v₀ ∧ v = (evs.filterMap c.commits).foldl (fun u g => g u) v₀ :=
  (tracked h hvalid hcond).value v hv

end Cell

end Transactions
