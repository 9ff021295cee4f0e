import Gloora.Lib.Threads

/-!
# Requests on a store with one write lock

A read sees the last committed state or, within a transaction, what the request has written
itself. The first write of a transaction takes the lock; its commit gives the lock back, and
so does the end of the request if that closes its connection. What is not committed by then is
lost. Any call may be refused, and a write may violate a constraint.
-/

namespace Transactions
set_option autoImplicit false

open Runs Threads

inductive Command (W : Type) where
  | read
  /-- `k` numbers the writes of one program. -/
  | write (k : Nat) (w : W)
  | commit (k : Nat)

structure Store (D J : Type) where
  db : D
  /-- The request that holds the lock, and the state its transaction has reached. -/
  writer : Option (Nat × D)
  /-- What is kept of the requests that have ended. -/
  side : J

namespace Store
variable {D J : Type} {s : Store D J} {i j : Nat} {d : D}

def view (s : Store D J) (i : Nat) : D :=
  match s.writer with
  | none => s.db
  | some (j, d) => if j = i then d else s.db

def Free (s : Store D J) (i : Nat) : Prop := ∀ j d, s.writer = some (j, d) → j = i

def release (s : Store D J) (i : Nat) : Store D J :=
  match s.writer with
  | none => s
  | some (j, _) => if j = i then { s with writer := none } else s

/-- The end of request `i`, which either closes its connection or leaves it open. -/
def finish (s : Store D J) (i : Nat) (closes : Bool) : Store D J :=
  if closes then s.release i else s

theorem view_of_writer (h : s.writer = some (i, d)) : s.view i = d := by
  simp [view, h]

theorem view_of_other (h : ∀ d, s.writer ≠ some (i, d)) : s.view i = s.db := by
  unfold view
  split
  · rfl
  · rename_i j d hw
    rw [if_neg]
    rintro rfl
    exact h d hw

@[simp] theorem release_db : (s.release i).db = s.db := by
  unfold release
  split
  · rfl
  · split <;> rfl

@[simp] theorem release_side : (s.release i).side = s.side := by
  unfold release
  split
  · rfl
  · split <;> rfl

theorem release_writer : (s.release i).writer = some (j, d) ↔ s.writer = some (j, d) ∧ j ≠ i := by
  unfold release
  split
  · rename_i hw
    simp [hw]
  · rename_i k d' hw
    by_cases hk : k = i
    · subst hk
      simp only [if_true, hw, Option.some.injEq, Prod.mk.injEq, reduceCtorEq, false_iff, not_and,
        not_not, and_imp]
      exact fun h _ => h.symm
    · simp only [hk, if_false, hw, Option.some.injEq, Prod.mk.injEq]
      constructor
      · rintro ⟨rfl, rfl⟩
        exact ⟨⟨rfl, rfl⟩, hk⟩
      · exact fun h => h.1

variable {closes : Bool} {x : Nat × D}

@[simp] theorem finish_db : (s.finish i closes).db = s.db := by
  cases closes
  · rfl
  · exact release_db

theorem of_finish_writer (h : (s.finish i closes).writer = some x) : s.writer = some x := by
  cases closes
  · exact h
  · exact (release_writer.mp h).1

/-- A request that still holds the lock at its end has left its connection open. -/
theorem open_of_finish (h : (s.finish i closes).writer = some (i, d)) : closes = false := by
  cases closes with
  | false => rfl
  | true => exact absurd rfl (release_writer.mp h).2

theorem finish_writer (hj : j ≠ i) :
    (s.finish i closes).writer = some (j, d) ↔ s.writer = some (j, d) := by
  cases closes
  · rfl
  · exact release_writer.trans (and_iff_left hj)

end Store

/-- Requests `A` whose programs write with `exec`, where `none` is a violated constraint. -/
structure Site (A W E D α J : Type) where
  program : A → Prog (Command W) (Except E D) α
  exec : D → W → Option D
  conflict : E
  busy : E
  admits : J → A → Prop
  /-- What is kept of a request that ends, given the committed state. -/
  keep : D → J → A → α → J
  /-- Whether a request that ends so has closed its connection. -/
  closes : A → α → Bool

variable {A W E D α J : Type} {V : Site A W E D α J}

/-- The answer to a call of request `i`. A violated constraint leaves the transaction open. -/
inductive Serves (V : Site A W E D α J) (s : Store D J) (i : Nat) :
    Command W → Except E D → Store D J → Prop where
  | read : Serves V s i .read (.ok (s.view i)) s
  | write {k : Nat} {w : W} {d : D} (hfree : s.Free i) (hexec : V.exec (s.view i) w = some d) :
      Serves V s i (.write k w) (.ok d) { s with writer := some (i, d) }
  | violates {k : Nat} {w : W} (hfree : s.Free i) (hexec : V.exec (s.view i) w = none) :
      Serves V s i (.write k w) (.error V.conflict) { s with writer := some (i, s.view i) }
  | commit {k : Nat} :
      Serves V s i (.commit k) (.ok (s.view i)) { s.release i with db := s.view i }
  | refused {c : Command W} : Serves V s i c (.error V.busy) s

def Site.service (V : Site A W E D α J) :
    Service (Store D J) A (Command W) (Except E D) α where
  program := V.program
  admits s a := V.admits s.side a
  serves := Serves V
  ends s i a x := { s.finish i (V.closes a x) with side := V.keep s.db s.side a x }

abbrev State (A W E D α J : Type) := Pool (Store D J) A (Command W) (Except E D) α

abbrev Event (A W E D α : Type) := Move A (Command W) (Except E D) α

def Site.start (db : D) (side : J) : State A W E D α J := .start ⟨db, none, side⟩

section Invariants
variable {db : D} {side : J} {σ : State A W E D α J} {evs : List (Event A W E D α)}

/-- A program whose writes have `pre` as long as the states it is shown have `I`. -/
def Keeps (I : D → Prop) (pre : W → Prop) (p : Prog (Command W) (Except E D) α) : Prop :=
  p.Safe (fun c => ∀ k w, c = .write k w → pre w) fun _ r => ∀ d, r = .ok d → I d

theorem keeps_true {I : D → Prop} (p : Prog (Command W) (Except E D) α) :
    Keeps I (fun _ => True) p := by
  induction p with
  | done x => trivial
  | call c next ih => exact ⟨fun _ _ _ => trivial, fun r _ => ih r⟩

theorem Keeps.mono {I : D → Prop} {pre pre' : W → Prop} {p : Prog (Command W) (Except E D) α}
    (h : Keeps I pre p) (hpre : ∀ w, pre w → pre' w) : Keeps I pre' p :=
  Prog.Safe.mono h (fun _ hc k w hw => hpre w (hc k w hw)) fun _ _ => id

/-- An invariant that the writes keep holds of the committed state, of the open one and of all
states that were shown to a request. -/
theorem run_keeps {I : D → Prop} {pre : W → Prop} (hstart : I db)
    (hsafe : ∀ a, Keeps I pre (V.program a))
    (hexec : ∀ d w d', I d → pre w → V.exec d w = some d' → I d')
    (h : Run (Step V.service) (Site.start db side) evs σ) :
    (I σ.store.db ∧ ∀ i d, σ.store.writer = some (i, d) → I d) ∧
      ∀ m ∈ evs, ∀ c d, m.act = .calls c (.ok d) → I d := by
  have hview : ∀ {s : Store D J} i, (I s.db ∧ ∀ i d, s.writer = some (i, d) → I d) →
      I (s.view i) := by
    intro s i hI
    unfold Store.view
    split
    · exact hI.1
    · rename_i j d hw
      split
      · exact hI.2 j d hw
      · exact hI.1
  have hboth := run_invariant (V := V.service)
    (fun s => I s.db ∧ ∀ i d, s.writer = some (i, d) → I d) ⟨hstart, by simp⟩ hsafe ?_ ?_ h
  · exact ⟨hboth.1, fun m hm c d hact => hboth.2.1 m hm c _ hact d rfl⟩
  · intro s i c r s' hI hpre hserves
    cases hserves with
    | read =>
      refine ⟨?_, hI⟩
      rintro _ ⟨⟩
      exact hview i hI
    | @write k w d hfree hd =>
      have hd' : I d := hexec _ _ _ (hview i hI) (hpre k w rfl) hd
      refine ⟨?_, hI.1, ?_⟩
      · rintro _ ⟨⟩
        exact hd'
      · rintro _ _ ⟨⟩
        exact hd'
    | violates =>
      refine ⟨by simp, hI.1, ?_⟩
      rintro _ _ ⟨⟩
      exact hview i hI
    | commit =>
      refine ⟨?_, hview i hI, ?_⟩
      · rintro _ ⟨⟩
        exact hview i hI
      · intro j d hw
        exact hI.2 j d (Store.release_writer.mp hw).1
    | refused => exact ⟨by simp, hI⟩
  · intro s i a x hI
    refine ⟨by simpa [Site.service] using hI.1, ?_⟩
    intro j d hw
    exact hI.2 j d (Store.of_finish_writer hw)

end Invariants

section Histories
variable {db : D} {side : J} {σ σ' : State A W E D α J} {evs : List (Event A W E D α)}
  {m : Event A W E D α} {l : List (Command W × Except E D)} {w : W} {d : D} {k : Nat}

/-- The writes a request has committed, and those of its open transaction. -/
def progress (l : List (Command W × Except E D)) : List W × List W :=
  l.foldl (fun x call => match call with
    | (.write _ w, .ok _) => (x.1, x.2 ++ [w])
    | (.commit _, .ok _) => (x.1 ++ x.2, [])
    | _ => x) ([], [])

def committed (l : List (Command W × Except E D)) : List W := (progress l).1

def pending (l : List (Command W × Except E D)) : List W := (progress l).2

@[simp] theorem pending_nil : pending ([] : List (Command W × Except E D)) = [] := rfl

@[simp] theorem pending_read {r : Except E D} : pending (l ++ [(.read, r)]) = pending l := by
  simp [pending, progress]

@[simp] theorem pending_error {c : Command W} {e : E} :
    pending (l ++ [(c, .error e)]) = pending l := by
  cases c <;> simp [pending, progress]

@[simp] theorem pending_write : pending (l ++ [(.write k w, .ok d)]) = pending l ++ [w] := by
  simp [pending, progress]

@[simp] theorem pending_commit : pending (l ++ [(.commit k, .ok d)]) = [] := by
  simp [pending, progress]

theorem callsOf_snoc_calls {i : Nat} {a : A} {c : Command W} {r : Except E D} :
    callsOf i (evs ++ [(⟨i, a, .calls c r⟩ : Event A W E D α)]) = callsOf i evs ++ [(c, r)] := by
  simp [callsOf, movesOf, Move.call?]

theorem callsOf_other {i : Nat} (hi : i ≠ m.id) : callsOf i (evs ++ [m]) = callsOf i evs := by
  rw [callsOf, movesOf_snoc_other evs hi, callsOf]

/-- A request after the calls `l` sees the committed state with its open transaction applied
to it, and holds the lock once it has written. -/
structure Coherent (V : Site A W E D α J) (s : Store D J) (i : Nat)
    (l : List (Command W × Except E D)) : Prop where
  view : (pending l).foldlM V.exec s.db = some (s.view i)
  locked : pending l ≠ [] → ∃ d, s.writer = some (i, d)

section Coherent
variable {s s' : Store D J} {i j : Nat} {c : Command W} {r : Except E D}

theorem Coherent.view_eq (h : Coherent V s i l) (hnil : pending l = []) : s.view i = s.db := by
  have hview := h.view
  rw [hnil] at hview
  exact (Option.some.inj hview).symm

theorem coherent_idle (hpending : pending l = []) (hwriter : ∀ d, s.writer ≠ some (i, d)) :
    Coherent V s i l where
  view := by
    rw [hpending, Store.view_of_other hwriter]
    rfl
  locked := fun hne => absurd hpending hne

theorem Coherent.idle (h : Coherent V s i l) (hwriter : ∀ d, s.writer ≠ some (i, d)) :
    pending l = [] := by
  by_contra hne
  obtain ⟨d, hd⟩ := h.locked hne
  exact hwriter d hd

/-- A call leaves another request that holds the lock alone, and gives no other request the
lock. -/
theorem Serves.others (h : Serves V s i c r s') (hj : j ≠ i) :
    (∀ d, s.writer = some (j, d) → s' = s) ∧
      ((∀ d, s.writer ≠ some (j, d)) → ∀ d, s'.writer ≠ some (j, d)) := by
  have hnew : ∀ d d' : D, some (i, d) ≠ some (j, d') := by
    rintro d d' ⟨⟩
    exact hj rfl
  cases h with
  | read => exact ⟨fun _ _ => rfl, id⟩
  | write hfree hexec => exact ⟨fun d hw => absurd (hfree _ _ hw) hj, fun _ => hnew _⟩
  | violates hfree hexec => exact ⟨fun d hw => absurd (hfree _ _ hw) hj, fun _ => hnew _⟩
  | commit =>
    refine ⟨?_, fun h d hw => h d (Store.release_writer.mp hw).1⟩
    intro d hw
    have hview : s.view i = s.db := by
      apply Store.view_of_other
      rw [hw]
      exact fun d' => (hnew d' d).symm
    rw [hview]
    unfold Store.release
    rw [hw]
    simp only [hj, if_false]
  | refused => exact ⟨fun _ _ => rfl, id⟩

theorem Coherent.others (h : Coherent V s j l) (hserves : Serves V s i c r s') (hj : j ≠ i) :
    Coherent V s' j l := by
  obtain ⟨hheld, hidle⟩ := hserves.others hj
  by_cases hw : ∃ d, s.writer = some (j, d)
  · obtain ⟨d, hw⟩ := hw
    exact (hheld d hw).symm ▸ h
  · have hwriter : ∀ d, s.writer ≠ some (j, d) := fun d hd => hw ⟨d, hd⟩
    exact coherent_idle (h.idle hwriter) (hidle hwriter)

/-- After its own call, what the request sees includes the call. -/
theorem Coherent.snoc (h : Coherent V s i l) (hserves : Serves V s i c r s') :
    Coherent V s' i (l ++ [(c, r)]) := by
  cases hserves with
  | read => exact ⟨pending_read.symm ▸ h.view, pending_read.symm ▸ h.locked⟩
  | @write k w d hfree hexec =>
    refine ⟨?_, fun _ => ⟨d, rfl⟩⟩
    rw [Store.view_of_writer (d := d) rfl, pending_write, List.foldlM_append, h.view]
    simpa using hexec
  | violates hfree hexec =>
    refine ⟨?_, fun _ => ⟨s.view i, rfl⟩⟩
    have hview : ({ s with writer := some (i, s.view i) } : Store D J).view i = s.view i :=
      Store.view_of_writer rfl
    rw [hview, pending_error]
    exact h.view
  | commit =>
    apply coherent_idle pending_commit
    exact fun d hw => (Store.release_writer.mp hw).2 rfl
  | refused => exact ⟨pending_error.symm ▸ h.view, pending_error.symm ▸ h.locked⟩

theorem Coherent.finished {closes : Bool} (h : Coherent V s j l) (hj : j ≠ i) (side : J) :
    Coherent V { s.finish i closes with side := side } j l := by
  by_cases hw : ∃ d, s.writer = some (j, d)
  · obtain ⟨d, hw⟩ := hw
    have hw' : (s.finish i closes).writer = some (j, d) := (Store.finish_writer hj).mpr hw
    have hview := h.view
    rw [Store.view_of_writer hw] at hview
    refine ⟨?_, fun _ => ⟨d, hw'⟩⟩
    rw [Store.view_of_writer (s := { s.finish i closes with side := side }) hw']
    simpa using hview
  · have hwriter : ∀ d, s.writer ≠ some (j, d) := fun d hd => hw ⟨d, hd⟩
    apply coherent_idle (h.idle hwriter)
    exact fun d hd => hwriter d (Store.of_finish_writer hd)

end Coherent

theorem callsOf_quiet {m : Event A W E D α} (hm : m.call? = none) (i : Nat) :
    callsOf i (evs ++ [m]) = callsOf i evs := by
  by_cases hi : m.id = i <;> simp [callsOf, movesOf, hi, hm]

theorem coherent (h : Run (Step V.service) (Site.start db side) evs σ) :
    (∀ i t, σ.threads i = some t → Coherent V σ.store i (callsOf i evs)) ∧
      ∀ i d, σ.store.writer = some (i, d) → i < σ.next := by
  induction h with
  | nil => exact ⟨by simp [Site.start, Pool.start], by simp [Site.start, Pool.start]⟩
  | @snoc es τ υ m hrun hstep ih =>
    obtain ⟨hcoherent, hwriters⟩ := ih
    have hthreads : ∀ j, j ≠ m.id → υ.threads j = τ.threads j := fun j hj => hstep.other hj
    cases hstep with
    | @arrives a hadmits =>
      have hfresh : callsOf τ.next es = [] := by
        cases traced hrun τ.next with
        | fresh _ _ hmoves => rw [callsOf, hmoves]; rfl
        | running _ _ _ hi => exact absurd hi (Nat.lt_irrefl _)
        | ended _ _ _ hi => exact absurd hi (Nat.lt_irrefl _)
      refine ⟨?_, fun j d hw => Nat.lt_succ_of_lt (hwriters j d hw)⟩
      intro j t ht
      rw [callsOf_quiet rfl]
      by_cases hj : j = τ.next
      · subst hj
        rw [hfresh]
        apply coherent_idle pending_nil
        exact fun d hw => Nat.lt_irrefl _ (hwriters _ d hw)
      · rw [hthreads j hj] at ht
        exact hcoherent j t ht
    | @calls i a c k r s' hthread hserves =>
      refine ⟨?_, ?_⟩
      · intro j t ht
        by_cases hj : j = i
        · subst hj
          rw [callsOf_snoc_calls]
          exact (hcoherent j _ hthread).snoc hserves
        · rw [hthreads j hj] at ht
          rw [callsOf_other hj]
          exact (hcoherent j t ht).others hserves hj
      · intro j d hw
        by_cases hj : j = i
        · subst hj
          obtain ⟨_, hlt, -⟩ := (traced hrun j).running_of hthread
          exact hlt
        · by_contra hlate
          exact (Serves.others hserves hj).2 (fun d h => hlate (hwriters j d h)) d hw
    | @ends i a x hthread =>
      refine ⟨?_, fun j d hw => hwriters j d (Store.of_finish_writer hw)⟩
      intro j t ht
      rw [callsOf_quiet rfl]
      by_cases hj : j = i
      · subst hj
        simp at ht
      · rw [hthreads j hj] at ht
        exact (hcoherent j t ht).finished hj _

/-- A commit applies what the request has pending. -/
theorem step_commit (h : Run (Step V.service) (Site.start db side) evs σ)
    (hstep : Step V.service σ m σ') (hact : m.act = .calls (.commit k) (.ok d)) :
    σ'.store.db = d ∧ (∃ next, σ.threads m.id = some ⟨m.input, .call (.commit k) next⟩) ∧
      (pending (callsOf m.id evs)).foldlM V.exec σ.store.db = some d := by
  cases hstep with
  | arrives => cases hact
  | @calls i a c next r s' hthread hserves =>
    cases hact
    cases hserves with
    | commit => exact ⟨rfl, ⟨next, hthread⟩, ((coherent h).1 i _ hthread).view⟩
  | ends => cases hact

/-- Nothing but a commit changes the committed state. -/
theorem step_db (hstep : Step V.service σ m σ')
    (hact : ∀ k d, m.act ≠ .calls (.commit k) (.ok d)) : σ'.store.db = σ.store.db := by
  cases hstep with
  | arrives => rfl
  | @calls i a c next r s' hthread hserves =>
    cases hserves with
    | commit => exact absurd rfl (hact _ _)
    | _ => rfl
  | ends => exact Store.finish_db

theorem pending_subset {l : List (Command W × Except E D)} {w : W} (h : w ∈ pending l) :
    ∃ k d, (.write k w, .ok d) ∈ l := by
  induction l using List.reverseRecOn with
  | nil => simp at h
  | append_singleton l x ih =>
    suffices hw : w ∈ pending l ∨ ∃ k d, x = (.write k w, .ok d) by
      rcases hw with hw | ⟨k, d, rfl⟩
      · obtain ⟨k, d, hmem⟩ := ih hw
        exact ⟨k, d, List.mem_append_left _ hmem⟩
      · exact ⟨k, d, by simp⟩
    obtain ⟨c, r⟩ := x
    cases r with
    | error e => exact .inl (by simpa using h)
    | ok d =>
      cases c with
      | read => exact .inl (by simpa using h)
      | commit k => simp at h
      | write k v =>
        rw [pending_write, List.mem_append, List.mem_singleton] at h
        rcases h with h | rfl
        · exact .inl h
        · exact .inr ⟨k, d, rfl⟩

/-- What a request has pending is what its program may write. -/
theorem pending_issued {issues : A → W → Prop} {i : Nat}
    {t : Thread A (Command W) (Except E D) α}
    (hissues : ∀ a, Keeps (fun _ => True) (issues a) (V.program a))
    (h : Run (Step V.service) (Site.start db side) evs σ) (ht : σ.threads i = some t) :
    ∀ w ∈ pending (callsOf i evs), issues t.input w := by
  intro w hw
  obtain ⟨k, d, hmem⟩ := pending_subset hw
  have hsafe := (follows_callsOf h ht).safe (hissues t.input) fun _ _ _ _ => trivial
  exact hsafe.1 _ hmem k w rfl

end Histories

section Closing
variable (V)

/-- Whether a request holds the lock after this call, where `held` says so of the time before. -/
def Holds (held : Prop) : Command W → Except E D → Prop
  | .read, _ => held
  | .write _ _, r => held ∨ (∃ d, r = .ok d) ∨ r = .error V.conflict
  | .commit _, r => held ∧ r = .error V.busy

/-- An answer that some store may give to the call. -/
inductive Possible : Command W → Except E D → Prop where
  | read (d : D) : Possible .read (.ok d)
  | write (k : Nat) (w : W) (d : D) : Possible (.write k w) (.ok d)
  | violates {k : Nat} {w : W} {d : D} (hexec : V.exec d w = none) :
      Possible (.write k w) (.error V.conflict)
  | commit (k : Nat) (d : D) : Possible (.commit k) (.ok d)
  | refused (c : Command W) : Possible c (.error V.busy)

/-- A program that does not hold the lock where it ends without closing its connection, as
long as its calls are answered in ways that `may` allows. -/
def Closes (may : Command W → Except E D → Prop) (a : A) :
    Prop → Prog (Command W) (Except E D) α → Prop
  | held, .done x => held → V.closes a x = true
  | held, .call c next => ∀ r, may c r → Closes may a (Holds V held c r) (next r)

/-- Possible answers, among them no refused commit of a write that has gone through. -/
structure Granting (may : Command W → Except E D → Prop) : Prop where
  possible {c : Command W} {r : Except E D} (h : may c r) : Possible V c r
  commits {k : Nat} {w : W} {d : D} {e : E} (h : may (.write k w) (.ok d)) : ¬ may (.commit k) (.error e)

/-- What the calls of a program that runs alone are answered, if the writes and commits with an
accepted number go through. -/
def Accepted (accepts : Nat → Bool) (c : Command W) (r : Except E D) : Prop :=
  Possible V c r ∧ match c with
    | .read => True
    | .write k _ => accepts k = false → r = .error V.busy
    | .commit k => accepts k = true → ∃ d, r = .ok d

/-- Possible answers in a run in which no commit is refused. -/
def Committed (c : Command W) (r : Except E D) : Prop :=
  Possible V c r ∧ ∀ k, c = .commit k → ∃ d, r = .ok d

variable {V} {may : Command W → Except E D → Prop} {accepts : Nat → Bool} {a : A} {held held' : Prop}
  {p q : Prog (Command W) (Except E D) α} {l : List (Command W × Except E D)}

theorem granting_accepted (accepts : Nat → Bool) : Granting V (Accepted V accepts) where
  possible h := h.1
  commits := by
    intro k w d e hwrite hcommit
    cases haccept : accepts k with
    | false => cases hwrite.2 haccept
    | true =>
      obtain ⟨d', hd'⟩ := hcommit.2 haccept
      cases hd'

theorem granting_committed : Granting V (Committed V) where
  possible h := h.1
  commits := by
    intro k w d e _ hcommit
    obtain ⟨d', hd'⟩ := hcommit.2 k rfl
    cases hd'

theorem closes_always (h : ∀ x, V.closes a x = true) : Closes V may a held p := by
  induction p generalizing held with
  | done x => exact fun _ => h x
  | call c next ih => exact fun r _ => ih r

theorem Closes.mono (h : Closes V may a held p) (hheld : held' → held) : Closes V may a held' p := by
  induction p generalizing held held' with
  | done x => exact fun h' => h (hheld h')
  | call c next ih =>
    intro r hr
    refine ih r (h r hr) ?_
    cases c with
    | read => exact hheld
    | write k w => exact Or.imp_left hheld
    | commit k => exact And.imp_left hheld

/-- Whether a request holds the lock after the calls `l`. -/
def HoldsAfter (V : Site A W E D α J) (held : Prop) (l : List (Command W × Except E D)) : Prop :=
  l.foldl (fun held x => Holds V held x.1 x.2) held

theorem Closes.follows (h : Closes V may a held p) (hl : p.Follows l q)
    (hmay : ∀ x ∈ l, may x.1 x.2) : Closes V may a (HoldsAfter V held l) q := by
  induction hl generalizing held with
  | nil => exact h
  | cons _ ih =>
    obtain ⟨hr, hrest⟩ := List.forall_mem_cons.mp hmay
    exact ih (h _ hr) hrest

theorem Serves.possible {s s' : Store D J} {i : Nat} {c : Command W} {r : Except E D}
    (h : Serves V s i c r s') : Possible V c r := by
  cases h with
  | read => exact .read _
  | write hfree hexec => exact .write _ _ _
  | violates hfree hexec => exact .violates hexec
  | commit => exact .commit _ _
  | refused => exact .refused _

/-- A request takes the lock with a write and keeps it if a commit is refused. -/
theorem Serves.holds {s s' : Store D J} {i : Nat} {c : Command W} {r : Except E D} {d : D}
    (h : Serves V s i c r s') (hheld : ∀ d, s.writer = some (i, d) → held)
    (hw : s'.writer = some (i, d)) : Holds V held c r := by
  cases h with
  | read => exact hheld d hw
  | write hfree hexec => exact .inr (.inl ⟨_, rfl⟩)
  | violates hfree hexec => exact .inr (.inr rfl)
  | commit => exact absurd rfl (Store.release_writer.mp hw).2
  | @refused c =>
    cases c with
    | read => exact hheld d hw
    | write k w => exact .inl (hheld d hw)
    | commit k => exact ⟨hheld d hw, rfl⟩

end Closing

section Alone
variable (V) (accepts : Nat → Bool)

/-- Serves a program while no other request runs: `db` is committed, `view` is what the program
sees, and the writes and commits with an accepted number go through. -/
def Site.alone : Prog (Command W) (Except E D) α → (db view : D) → D × α
  | .done x, db, _ => (db, x)
  | .call .read next, db, view => alone (next (.ok view)) db view
  | .call (.write k w) next, db, view =>
    if accepts k then
      match V.exec view w with
      | some view' => alone (next (.ok view')) db view'
      | none => alone (next (.error V.conflict)) db view
    else alone (next (.error V.busy)) db view
  | .call (.commit k) next, db, view =>
    if accepts k then alone (next (.ok view)) view view
    else alone (next (.error V.busy)) db view

variable {V} {accepts}

/-- Request `i` runs by itself: what it sees is committed or in its open transaction. -/
def Sole (s : Store D J) (i : Nat) (view : D) : Prop :=
  (s.writer = none ∧ view = s.db) ∨ s.writer = some (i, view)

theorem Sole.view_eq {s : Store D J} {i : Nat} {view : D} (h : Sole s i view) :
    s.view i = view := by
  rcases h with ⟨hnone, rfl⟩ | hw
  · apply Store.view_of_other
    simp [hnone]
  · exact Store.view_of_writer hw

theorem Sole.free {s : Store D J} {i : Nat} {view : D} (h : Sole s i view) : s.Free i := by
  intro j d hj
  rcases h with ⟨hnone, -⟩ | hw
  · simp [hnone] at hj
  · exact (Prod.mk.inj (Option.some.inj (hj.symm.trans hw))).1

theorem Sole.released {s : Store D J} {i : Nat} {view : D} (h : Sole s i view) :
    (s.release i).writer = none := by
  rcases h with ⟨hnone, -⟩ | hw
  · simp [Store.release, hnone]
  · simp [Store.release, hw]

/-- The pool after request `i` has been served alone to the end. -/
def finished (V : Site A W E D α J) (accepts : Nat → Bool) (σ : State A W E D α J) (i : Nat) (a : A)
    (p : Prog (Command W) (Except E D) α) (view : D) : State A W E D α J :=
  let result := V.alone accepts p σ.store.db view
  ⟨⟨result.1, none, V.keep result.1 σ.store.side a result.2⟩, σ.next,
    Function.update σ.threads i none⟩

/-- A program served alone is one way for the pool to serve it. -/
theorem run_alone (accepts : Nat → Bool) {a : A} {i : Nat} (p : Prog (Command W) (Except E D) α)
    {σ : State A W E D α J} {view : D} {held : Prop} (hthread : σ.threads i = some ⟨a, p⟩)
    (hsole : Sole σ.store i view) (hcloses : Closes V (Accepted V accepts) a held p)
    (hheld : ∀ d, σ.store.writer = some (i, d) → held) :
    ∃ evs, Run (Step V.service) σ evs (finished V accepts σ i a p view) := by
  induction p generalizing σ view held with
  | done x =>
    have hstep : Step V.service σ ⟨i, a, .ends x⟩ _ := .ends hthread
    have hfree : (σ.store.finish i (V.closes a x)).writer = none := by
      rcases hsole with ⟨hnone, -⟩ | hw
      · apply Option.eq_none_iff_forall_ne_some.mpr
        intro y hy
        cases hnone.symm.trans (Store.of_finish_writer hy)
      · rw [hcloses (hheld _ hw)]
        exact Sole.released (.inr hw)
    have hstore : ({ σ.store.finish i (V.closes a x) with
        side := V.keep σ.store.db σ.store.side a x } : Store D J) =
          ⟨σ.store.db, none, V.keep σ.store.db σ.store.side a x⟩ := by
      have hdb : (σ.store.finish i (V.closes a x)).db = σ.store.db := Store.finish_db
      rw [← hfree, ← hdb]
    refine ⟨[⟨i, a, .ends x⟩], .single ?_⟩
    change Step V.service σ ⟨i, a, .ends x⟩
      ⟨⟨σ.store.db, none, V.keep σ.store.db σ.store.side a x⟩, σ.next, _⟩
    rw [← hstore]
    exact hstep
  | call c next ih =>
    -- one answer `r`, after which the request is still the only one
    have advance : ∀ (r : Except E D) (s' : Store D J) (view' : D),
        Serves V σ.store i c r s' → Accepted V accepts c r → Sole s' i view' →
        s'.side = σ.store.side →
        V.alone accepts (.call c next) σ.store.db view = V.alone accepts (next r) s'.db view' →
        ∃ evs, Run (Step V.service) σ evs (finished V accepts σ i a (.call c next) view) := by
      intro r s' view' hserves haccepted hsole' hside halone
      have hstep : Step V.service σ ⟨i, a, .calls c r⟩
          ⟨s', σ.next, Function.update σ.threads i (some ⟨a, next r⟩)⟩ := .calls hthread hserves
      obtain ⟨evs, hrun⟩ := ih r (σ := ⟨s', σ.next, Function.update σ.threads i (some ⟨a, next r⟩)⟩)
        (Function.update_self _ _ _) hsole' (hcloses r haccepted) fun d => hserves.holds hheld
      refine ⟨_ :: evs, Run.cons hstep ?_⟩
      unfold finished at hrun ⊢
      rw [halone]
      simpa [hside] using hrun
    have hview := hsole.view_eq
    have hfree := hsole.free
    cases c with
    | read =>
      exact advance (.ok view) σ.store view (hview ▸ .read) ⟨.read view, trivial⟩ hsole rfl rfl
    | write k w =>
      cases haccept : accepts k with
      | true =>
        have hgoes : ∀ r : Except E D, Possible V (.write k w) r →
            Accepted V accepts (.write k w) r :=
          fun _ hr => ⟨hr, fun hno => by cases haccept.symm.trans hno⟩
        cases hexec : V.exec view w with
        | some view' =>
          refine advance (.ok view') { σ.store with writer := some (i, view') } view'
            (.write hfree (hview.symm ▸ hexec)) (hgoes _ (.write k w view')) (.inr rfl) rfl ?_
          simp only [Site.alone, haccept, if_true, hexec]
        | none =>
          refine advance (.error V.conflict) { σ.store with writer := some (i, view) } view ?_
            (hgoes _ (.violates hexec)) (.inr rfl) rfl ?_
          · have hviolates : Serves V σ.store i (.write k w) (.error V.conflict)
                { σ.store with writer := some (i, σ.store.view i) } :=
              .violates hfree (hview.symm ▸ hexec)
            rwa [hview] at hviolates
          · simp only [Site.alone, haccept, if_true, hexec]
      | false =>
        refine advance (.error V.busy) σ.store view .refused ⟨.refused _, fun _ => rfl⟩ hsole rfl ?_
        simp only [Site.alone, haccept, if_false, Bool.false_eq_true]
    | commit k =>
      cases haccept : accepts k with
      | true =>
        have hcommit : Serves V σ.store i (.commit k) (.ok (σ.store.view i))
            { σ.store.release i with db := σ.store.view i } := .commit
        rw [hview] at hcommit
        refine advance (.ok view) { σ.store.release i with db := view } view hcommit
          ⟨.commit k view, fun _ => ⟨view, rfl⟩⟩ (.inl ⟨hsole.released, rfl⟩) Store.release_side ?_
        simp only [Site.alone, haccept, if_true]
      | false =>
        have hrefused : Accepted V accepts (.commit k) (.error V.busy) :=
          ⟨.refused _, fun hyes => by cases haccept.symm.trans hyes⟩
        refine advance (.error V.busy) σ.store view .refused hrefused hsole rfl ?_
        simp only [Site.alone, haccept, if_false, Bool.false_eq_true]

end Alone

end Transactions
