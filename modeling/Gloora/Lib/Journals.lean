import Gloora.Lib.Transactions

/-!
# What a run commits

The journal lists the committed writes in the order of their commits, each with the request
that made it. It builds the committed state, and each request's part of it is what that
request has committed.
-/

namespace Transactions
set_option autoImplicit false

open Runs Threads

variable {A W E D α J : Type} {V : Site A W E D α J}

section Journal
variable {db : D} {side : J} {σ : State A W E D α J} {evs : List (Event A W E D α)}
  {m : Event A W E D α} {l : List (Command W × Except E D)} {c : Command W} {w : W} {d : D}
  {k i : Nat}

/-- What a move commits after the moves `pre`. -/
def batch (pre : List (Event A W E D α)) (m : Event A W E D α) : List (Nat × W) :=
  match m.act with
  | .calls (.commit _) (.ok _) => (pending (callsOf m.id pre)).map fun w => (m.id, w)
  | _ => []

def journalFrom (pre : List (Event A W E D α)) : List (Event A W E D α) → List (Nat × W)
  | [] => []
  | m :: evs => batch pre m ++ journalFrom (pre ++ [m]) evs

def journal (evs : List (Event A W E D α)) : List (Nat × W) := journalFrom [] evs

theorem journalFrom_snoc (pre evs : List (Event A W E D α)) (m : Event A W E D α) :
    journalFrom pre (evs ++ [m]) = journalFrom pre evs ++ batch (pre ++ evs) m := by
  induction evs generalizing pre with
  | nil => simp [journalFrom]
  | cons x evs ih => simp [journalFrom, ih]

theorem journal_snoc (evs : List (Event A W E D α)) (m : Event A W E D α) :
    journal (evs ++ [m]) = journal evs ++ batch evs m := by
  rw [journal, journalFrom_snoc, List.nil_append]
  rfl

theorem batch_of_act (hact : m.act = .calls (.commit k) (.ok d)) :
    batch evs m = (pending (callsOf m.id evs)).map fun w => (m.id, w) := by
  simp [batch, hact]

theorem batch_eq_nil (hact : ∀ k d, m.act ≠ .calls (.commit k) (.ok d)) : batch evs m = [] := by
  unfold batch
  split
  · rename_i k d h
    exact absurd h (hact k d)
  · rfl

theorem journal_builds (h : Run (Step V.service) (Site.start db side) evs σ) :
    ((journal evs).map Prod.snd).foldlM V.exec db = some σ.store.db := by
  induction h with
  | nil => rfl
  | @snoc es τ υ m hrun hstep ih =>
    rw [journal_snoc, List.map_append, List.foldlM_append, ih]
    by_cases hact : ∃ k d, m.act = .calls (.commit k) (.ok d)
    · obtain ⟨k, d, hact⟩ := hact
      obtain ⟨rfl, -, hexec⟩ := step_commit hrun hstep hact
      rw [batch_of_act hact, List.map_map]
      simpa [Function.comp_def] using hexec
    · have hother : ∀ k d, m.act ≠ .calls (.commit k) (.ok d) := fun k d h => hact ⟨k, d, h⟩
      rw [batch_eq_nil hother, step_db hstep hother]
      rfl

/-- The journal of a later part of a run builds on the state it starts from. -/
theorem journalFrom_builds {pre : List (Event A W E D α)} {τ : State A W E D α J}
    (h : Run (Step V.service) (Site.start db side) pre σ) (h' : Run (Step V.service) σ evs τ) :
    ((journalFrom pre evs).map Prod.snd).foldlM V.exec σ.store.db = some τ.store.db := by
  induction h' with
  | nil => rfl
  | @snoc es υ τ m hrun hstep ih =>
    rw [journalFrom_snoc, List.map_append, List.foldlM_append, ih]
    by_cases hact : ∃ k d, m.act = .calls (.commit k) (.ok d)
    · obtain ⟨k, d, hact⟩ := hact
      obtain ⟨rfl, -, hexec⟩ := step_commit (h.trans hrun) hstep hact
      rw [batch_of_act hact, List.map_map]
      simpa [Function.comp_def] using hexec
    · have hother : ∀ k d, m.act ≠ .calls (.commit k) (.ok d) := fun k d h => hact ⟨k, d, h⟩
      rw [batch_eq_nil hother, step_db hstep hother]
      rfl

/-- What each write of a list keeps, the list keeps. -/
theorem foldlM_kept {exec : D → W → Option D} {I : D → Prop} {ws : List W} {d' : D} (hd : I d)
    (hkeep : ∀ a w b, I a → w ∈ ws → exec a w = some b → I b)
    (h : ws.foldlM exec d = some d') : I d' := by
  induction ws generalizing d with
  | nil =>
    obtain rfl : d = d' := by simpa using h
    exact hd
  | cons w ws ih =>
    rw [List.foldlM_cons] at h
    obtain ⟨b, hb, hrest⟩ := Option.bind_eq_some_iff.mp h
    exact ih (hkeep d w b hd List.mem_cons_self hb)
      (fun a v c ha hv => hkeep a v c ha (List.mem_cons_of_mem w hv)) hrest

@[simp] theorem committed_nil : committed ([] : List (Command W × Except E D)) = [] := rfl

theorem committed_commit : committed (l ++ [(.commit k, .ok d)]) = committed l ++ pending l := by
  simp [committed, pending, progress]

theorem committed_other {r : Except E D} (hc : ∀ k d, (c, r) ≠ (.commit k, .ok d)) :
    committed (l ++ [(c, r)]) = committed l := by
  cases r with
  | error e => cases c <;> simp [committed, progress]
  | ok d =>
    cases c with
    | commit k => exact absurd rfl (hc k d)
    | _ => simp [committed, progress]

/-- A request's part of the journal is what it has committed. -/
theorem journal_of (evs : List (Event A W E D α)) (i : Nat) :
    ((journal evs).filter fun x => x.1 = i).map Prod.snd = committed (callsOf i evs) := by
  induction evs using List.reverseRecOn with
  | nil => rfl
  | append_singleton es m ih =>
    rw [journal_snoc, List.filter_append, List.map_append, ih]
    by_cases hact : ∃ k d, m.act = .calls (.commit k) (.ok d)
    · obtain ⟨k, d, hact⟩ := hact
      rw [batch_of_act hact, callsOf_snoc]
      by_cases hi : m.id = i
      · subst hi
        simp [Move.call?, hact, committed_commit, List.filter_map, Function.comp_def]
      · simp [hi, List.filter_map, Function.comp_def]
    · have hother : ∀ k d, m.act ≠ .calls (.commit k) (.ok d) := fun k d h => hact ⟨k, d, h⟩
      rw [batch_eq_nil hother, callsOf_snoc]
      obtain ⟨j, a, act⟩ := m
      by_cases hi : j = i
      · cases act with
        | calls c r =>
          have hcall : ∀ k d, (c, r) ≠ (.commit k, .ok d) := by
            rintro k d ⟨⟩
            exact hother k d rfl
          simp [hi, Move.call?, committed_other hcall]
        | _ => simp [Move.call?]
      · simp [hi]

end Journal

section Views
variable {s s' : Store D J} {i j : Nat} {c : Command W} {r : Except E D}

/-- What an answer does to the committed state and to the state its request sees. -/
inductive Answers (V : Site A W E D α J) (db view : D) :
    Command W → Except E D → D → D → Prop where
  | read : Answers V db view .read (.ok view) db view
  | write {k : Nat} {w : W} {view' : D} (hexec : V.exec view w = some view') :
      Answers V db view (.write k w) (.ok view') db view'
  | commit {k : Nat} : Answers V db view (.commit k) (.ok view) view view
  | fails {c : Command W} {e : E} : Answers V db view c (.error e) db view

theorem Serves.answers (h : Serves V s i c r s') :
    Answers V s.db (s.view i) c r s'.db (s'.view i) := by
  cases h with
  | read => exact .read
  | @write k w d hfree hexec =>
    rw [Store.view_of_writer (s := { s with writer := some (i, d) }) rfl]
    exact .write hexec
  | violates hfree hexec =>
    rw [Store.view_of_writer (s := { s with writer := some (i, s.view i) }) rfl]
    exact .fails
  | commit =>
    rw [Store.view_of_other (s := { s.release i with db := s.view i })
      fun d hw => (Store.release_writer.mp hw).2 rfl]
    exact .commit
  | refused => exact .fails

/-- A call does not change what another request sees, unless that has nothing pending. -/
theorem Coherent.others_view {l : List (Command W × Except E D)} (h : Coherent V s j l)
    (hserves : Serves V s i c r s') (hj : j ≠ i) :
    s' = s ∨ (pending l = [] ∧ s.view j = s.db ∧ s'.view j = s'.db) := by
  obtain ⟨hheld, hidle⟩ := hserves.others hj
  by_cases hw : ∃ d, s.writer = some (j, d)
  · obtain ⟨d, hw⟩ := hw
    exact .inl (hheld d hw)
  · have hwriter : ∀ d, s.writer ≠ some (j, d) := fun d hd => hw ⟨d, hd⟩
    exact .inr ⟨h.idle hwriter, Store.view_of_other hwriter, Store.view_of_other (hidle hwriter)⟩

theorem finished_view {closes : Bool} (hj : j ≠ i) : (s.finish i closes).view j = s.view j := by
  by_cases hw : ∃ d, s.writer = some (j, d)
  · obtain ⟨d, hw⟩ := hw
    rw [Store.view_of_writer hw, Store.view_of_writer ((Store.finish_writer hj).mpr hw)]
  · have hwriter : ∀ d, s.writer ≠ some (j, d) := fun d hd => hw ⟨d, hd⟩
    rw [Store.view_of_other hwriter, Store.view_of_other, Store.finish_db]
    exact fun d hd => hwriter d (Store.of_finish_writer hd)

end Views

end Transactions
