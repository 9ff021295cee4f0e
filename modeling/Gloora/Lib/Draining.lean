import Gloora.Lib.Schedules

/-!
# Requests that come to an end

As long as the lock is held by a request that will give it back, the running requests can end
one after the other, and none of their calls has to be refused. Once a request has ended with
the lock, nothing is committed any more.
-/

namespace Transactions
set_option autoImplicit false

open Runs Threads

variable {A W E D α J : Type} {V : Site A W E D α J}

section Draining
variable {s : Store D J} {i : Nat} {c : Command W} {db : D} {side : J} {σ : State A W E D α J}
  {evs : List (Event A W E D α)}

/-- A move of a request that has arrived, which is not a refusal. -/
def Onward (V : Site A W E D α J) (m : Event A W E D α) : Prop :=
  m.isArrival = false ∧ ∀ c, m.act ≠ .calls c (.error V.busy)

/-- A request that may take the lock is not refused, and may still take it afterwards. -/
theorem answer_free (hbusy : V.conflict ≠ V.busy) (hfree : s.Free i) :
    (V.answer s i c).2.Free i ∧ (V.answer s i c).1 ≠ .error V.busy := by
  cases c with
  | read => exact ⟨hfree, by simp [Site.answer]⟩
  | commit k =>
    refine ⟨?_, by simp [Site.answer]⟩
    intro j d hw
    exact hfree j d (Store.release_writer.mp hw).1
  | write k w =>
    have hall : (s.writer.all fun x => x.1 == i) = true := by
      cases hw : s.writer with
      | none => rfl
      | some x => simpa using hfree x.1 x.2 hw
    have hheld : ∀ d, ({ s with writer := some (i, d) } : Store D J).Free i := by
      rintro d _ _ ⟨⟩
      rfl
    simp only [Site.answer, hall, if_true]
    split
    · exact ⟨hheld _, by simp⟩
    · refine ⟨hheld _, ?_⟩
      simpa using hbusy

/-- A request that may take the lock can run to its end, after which the lock is free. -/
theorem finishes (hbusy : V.conflict ≠ V.busy) {a : A} {held : Prop}
    (p : Prog (Command W) (Except E D) α) (hthread : σ.threads i = some ⟨a, p⟩)
    (hfree : σ.store.Free i) (hcloses : Closes V (Committed V) a held p)
    (hheld : ∀ d, σ.store.writer = some (i, d) → held) :
    ∃ evs τ, Run (Step V.service) σ evs τ ∧ τ.threads = Function.update σ.threads i none ∧
      τ.store.writer = none ∧ ∀ m ∈ evs, Onward V m := by
  induction p generalizing σ held with
  | done x =>
    refine ⟨[⟨i, a, .ends x⟩], _, .single (.ends hthread), rfl, ?_, ?_⟩
    · apply Option.eq_none_iff_forall_ne_some.mpr
      rintro ⟨j, d⟩ hw
      have hwriter : σ.store.writer = some (j, d) := Store.of_finish_writer hw
      obtain rfl := hfree j d hwriter
      have hopen : V.closes a x = false := Store.open_of_finish hw
      rw [hcloses (hheld d hwriter)] at hopen
      cases hopen
    · intro m hm
      obtain rfl := List.mem_singleton.mp hm
      exact ⟨rfl, fun c hact => by cases hact⟩
  | call c next ih =>
    obtain ⟨hfree', hnot⟩ := answer_free (c := c) hbusy hfree
    let r := (V.answer σ.store i c).1
    let υ : State A W E D α J := ⟨(V.answer σ.store i c).2, σ.next,
      Function.update σ.threads i (some ⟨a, next r⟩)⟩
    have hstep : Step V.service σ ⟨i, a, .calls c r⟩ υ := .calls hthread answer_serves
    have hcommitted : Committed V c r := by
      refine ⟨answer_serves.possible, ?_⟩
      rintro k rfl
      exact ⟨_, rfl⟩
    obtain ⟨evs, τ, hrun, hthreads, hwriter, hevs⟩ := ih r (σ := υ) (Function.update_self _ _ _)
      hfree' (hcloses r hcommitted) fun d => answer_serves.holds hheld
    refine ⟨_, τ, Run.cons hstep hrun, ?_, hwriter, ?_⟩
    · rw [hthreads, Function.update_idem]
    · refine List.forall_mem_cons.mpr ⟨⟨rfl, ?_⟩, hevs⟩
      intro c' hact
      exact hnot (Act.calls.inj hact).2

/-- The requests below `n` can end one after the other. -/
theorem drains_below (hbusy : V.conflict ≠ V.busy) (hwriter : σ.store.writer = none)
    (hcloses : ∀ i t, σ.threads i = some t → Closes V (Committed V) t.input False t.prog) (n : Nat) :
    ∃ evs τ, Run (Step V.service) σ evs τ ∧ (∀ i, τ.threads i = if i < n then none else σ.threads i) ∧
      τ.store.writer = none ∧ ∀ m ∈ evs, Onward V m := by
  induction n with
  | zero => exact ⟨[], σ, .nil, by simp, hwriter, by simp⟩
  | succ n ih =>
    obtain ⟨evs, τ, hrun, hthreads, hfree, hevs⟩ := ih
    have hn : τ.threads n = σ.threads n := by simpa using hthreads n
    cases ht : σ.threads n with
    | none =>
      refine ⟨evs, τ, hrun, ?_, hfree, hevs⟩
      intro i
      rw [hthreads]
      rcases Nat.lt_trichotomy i n with hi | rfl | hi
      · rw [if_pos hi, if_pos (Nat.lt_succ_of_lt hi)]
      · simp [ht]
      · rw [if_neg (Nat.lt_asymm hi), if_neg (by omega)]
    | some t =>
      obtain ⟨evs', υ, hrun', hthreads', hfree', hevs'⟩ := finishes hbusy t.prog (hn.trans ht)
        (by simp [Store.Free, hfree]) (hcloses n t ht) (by simp [hfree])
      refine ⟨evs ++ evs', υ, hrun.trans hrun', ?_, hfree', ?_⟩
      · intro i
        rw [hthreads']
        by_cases hi : i = n
        · subst hi
          simp
        · rw [Function.update_of_ne hi, hthreads]
          have hlt : i < n + 1 ↔ i < n := by omega
          simp only [hlt]
      · intro m hm
        exact (List.mem_append.mp hm).elim (hevs m) (hevs' m)

/-- Every running request gives the lock back in the end if its commits go through, and no
other request holds it. -/
structure Attended (V : Site A W E D α J) (σ : State A W E D α J) : Prop where
  closes (i : Nat) (t : Thread A (Command W) (Except E D) α) (ht : σ.threads i = some t) :
    Closes V (Committed V) t.input (∃ d, σ.store.writer = some (i, d)) t.prog
  running (i : Nat) (d : D) (hw : σ.store.writer = some (i, d)) : (σ.threads i).isSome

/-- Then all of them can end without a refusal. -/
theorem drains (hbusy : V.conflict ≠ V.busy) (h : Run (Step V.service) (Site.start db side) evs σ)
    (hattended : Attended V σ) :
    ∃ evs' τ, Run (Step V.service) σ evs' τ ∧ τ.Quiet ∧ ∀ m ∈ evs', Onward V m := by
  suffices hunlocked : ∃ evs' τ, Run (Step V.service) σ evs' τ ∧ τ.store.writer = none ∧
      (∀ i t, τ.threads i = some t → σ.threads i = some t) ∧ ∀ m ∈ evs', Onward V m by
    obtain ⟨evs', τ, hrun, hwriter, hthreads, hevs'⟩ := hunlocked
    have hcloses : ∀ i t, τ.threads i = some t → Closes V (Committed V) t.input False t.prog :=
      fun i t ht => (hattended.closes i t (hthreads i t ht)).mono False.elim
    obtain ⟨evs'', υ, hrun', hthreads', -, hevs''⟩ := drains_below hbusy hwriter hcloses σ.next
    refine ⟨evs' ++ evs'', υ, hrun.trans hrun', ?_, ?_⟩
    · intro i
      rw [hthreads']
      split
      · rfl
      · rename_i hi
        apply Option.eq_none_iff_forall_ne_some.mpr
        intro t ht
        obtain ⟨_, hlt, -⟩ := (traced h i).running_of (hthreads i t ht)
        exact hi hlt
    · intro m hm
      exact (List.mem_append.mp hm).elim (hevs' m) (hevs'' m)
  cases hw : σ.store.writer with
  | none => exact ⟨[], σ, .nil, hw, fun _ _ => id, by simp⟩
  | some x =>
    -- the holder of the lock goes first
    obtain ⟨i, d⟩ := x
    obtain ⟨t, ht⟩ := Option.isSome_iff_exists.mp (hattended.running i d hw)
    have hfree : σ.store.Free i := by
      intro j e hj
      exact (Prod.mk.inj (Option.some.inj (hj.symm.trans hw))).1
    obtain ⟨evs', τ, hrun, hthreads, hwriter, hevs'⟩ := finishes hbusy t.prog ht hfree
      (hattended.closes i t ht) fun d hd => ⟨d, hd⟩
    refine ⟨evs', τ, hrun, hwriter, ?_, hevs'⟩
    intro j t' ht'
    rw [hthreads] at ht'
    by_cases hi : j = i
    · subst hi
      simp at ht'
    · rwa [Function.update_of_ne hi] at ht'

end Draining

section Holders
variable {db d : D} {side : J} {σ σ' : State A W E D α J} {evs : List (Event A W E D α)}
  {m : Event A W E D α} {i : Nat} {a : A}

theorem calls_possible (h : Run (Step V.service) (Site.start db side) evs σ) (i : Nat) :
    ∀ x ∈ callsOf i evs, Possible V x.1 x.2 := by
  intro x hx
  obtain ⟨m, hm, -, hact⟩ := mem_callsOf hx
  obtain ⟨_, _, _, _, -, -, hstep, -⟩ := h.at_mem hm
  cases hstep with
  | arrives => cases hact
  | calls hthread hserves =>
    cases hact
    exact hserves.possible
  | ends => cases hact

/-- The holder of the lock has taken it with a write. It is running, or has ended without
closing its connection. -/
theorem holder (h : Run (Step V.service) (Site.start db side) evs σ) :
    ∀ i d, σ.store.writer = some (i, d) → HoldsAfter V False (callsOf i evs) ∧
      ((σ.threads i).isSome ∨ ∃ a x, ⟨i, a, .ends x⟩ ∈ evs ∧ V.closes a x = false) := by
  induction h with
  | nil => simp [Site.start, Pool.start]
  | @snoc es τ υ m hrun hstep ih =>
    intro i d hw
    have hlater : ((τ.threads i).isSome ∨ ∃ a x, ⟨i, a, .ends x⟩ ∈ es ∧ V.closes a x = false) →
        i ≠ m.id → ((υ.threads i).isSome ∨
          ∃ a x, ⟨i, a, .ends x⟩ ∈ es ++ [m] ∧ V.closes a x = false) := by
      intro hheld hi
      rw [hstep.other hi]
      apply hheld.imp_right
      rintro ⟨a, x, hends, hcloses⟩
      exact ⟨a, x, List.mem_append_left _ hends, hcloses⟩
    cases hstep with
    | @arrives a hadmits =>
      obtain ⟨hholds, hheld⟩ := ih i d hw
      have hi : i ≠ τ.next := Nat.ne_of_lt ((coherent hrun).2 i d hw)
      rw [callsOf_other hi]
      exact ⟨hholds, hlater hheld hi⟩
    | @calls j a c k r s' hthread hserves =>
      by_cases hi : i = j
      · subst hi
        refine ⟨?_, .inl (by simp)⟩
        rw [callsOf_snoc_calls, HoldsAfter, List.foldl_append]
        exact hserves.holds (fun d hd => (ih i d hd).1) hw
      · rw [callsOf_other hi]
        obtain ⟨d', hd'⟩ : ∃ d', τ.store.writer = some (i, d') := by
          by_contra hnone
          exact (hserves.others hi).2 (fun d' hd' => hnone ⟨d', hd'⟩) d hw
        exact ⟨(ih i d' hd').1, hlater (ih i d' hd').2 hi⟩
    | @ends j a x hthread =>
      obtain ⟨hholds, hheld⟩ := ih i d (Store.of_finish_writer hw)
      rw [callsOf_quiet rfl]
      refine ⟨hholds, ?_⟩
      by_cases hi : i = j
      · subst hi
        exact .inr ⟨a, x, by simp, Store.open_of_finish hw⟩
      · exact hlater hheld hi

/-- Where no commit was refused, a request gives the lock back in the end. -/
theorem closes_of_commits (hcloses : Closes V (Committed V) a False (V.program a))
    (h : Run (Step V.service) (Site.start db side) evs σ) {p : Prog (Command W) (Except E D) α}
    (hfollows : (V.program a).Follows (callsOf i evs) p)
    (hcommits : ∀ k e, (.commit k, .error e) ∉ callsOf i evs) :
    Closes V (Committed V) a (∃ d, σ.store.writer = some (i, d)) p := by
  have hcalls : ∀ x ∈ callsOf i evs, Committed V x.1 x.2 := by
    rintro ⟨c, r⟩ hx
    refine ⟨calls_possible h i _ hx, ?_⟩
    rintro k rfl
    cases r with
    | ok d => exact ⟨d, rfl⟩
    | error e => exact absurd hx (hcommits k e)
  apply (hcloses.follows hfollows hcalls).mono
  rintro ⟨d, hw⟩
  exact (holder h i d hw).1

/-- A request that has ended holds the lock only if one of its commits was refused. -/
theorem commit_refused (hcloses : ∀ a, Closes V (Committed V) a False (V.program a))
    (h : Run (Step V.service) (Site.start db side) evs σ) (hw : σ.store.writer = some (i, d))
    (hended : σ.threads i = none) :
    ∃ a x k e, ⟨i, a, .ends x⟩ ∈ evs ∧ V.closes a x = false ∧
      (.commit k, .error e) ∈ callsOf i evs := by
  obtain ⟨-, hrunning | ⟨a, x, hends, hopen⟩⟩ := holder h i d hw
  · rw [hended] at hrunning
    cases hrunning
  by_contra hnone
  have hcommits : ∀ k e, (.commit k, .error e) ∉ callsOf i evs :=
    fun k e hcall => hnone ⟨a, x, k, e, hends, hopen, hcall⟩
  have hclosed : V.closes a x = true :=
    closes_of_commits (hcloses a) h (follows_ended h hends).1 hcommits ⟨d, hw⟩
  rw [hopen] at hclosed
  cases hclosed

/-- Request `i` has ended and holds the lock. -/
structure Abandoned (σ : State A W E D α J) (i : Nat) (d : D) : Prop where
  writer : σ.store.writer = some (i, d)
  ended : σ.threads i = none
  arrived : i < σ.next

/-- While such a request holds the lock, no write goes through and nothing is committed. -/
theorem Abandoned.step (h : Abandoned σ i d) (hstep : Step V.service σ m σ') :
    Abandoned σ' i d ∧ σ'.store.db = σ.store.db ∧
      ∀ k w d', m.act ≠ .calls (.write k w) (.ok d') := by
  have hother : i ≠ m.id := by
    intro hi
    cases hstep with
    | arrives => exact Nat.ne_of_lt h.arrived hi
    | calls hthread hserves => cases (hi ▸ h.ended).symm.trans hthread
    | ends hthread => cases (hi ▸ h.ended).symm.trans hthread
  have hended : σ'.threads i = none := (hstep.other hother).trans h.ended
  have harrived : i < σ'.next := Nat.lt_of_lt_of_le h.arrived hstep.next_le
  cases hstep with
  | arrives => exact ⟨⟨h.writer, hended, harrived⟩, rfl, by simp⟩
  | @calls j a c k r s' hthread hserves =>
    have hsame : s' = σ.store := (hserves.others hother).1 d h.writer
    refine ⟨⟨by rw [hsame]; exact h.writer, hended, harrived⟩, by rw [hsame], ?_⟩
    intro k' w d' hact
    cases hact
    cases hserves with
    | write hfree hexec => exact hother (hfree i d h.writer)
  | ends =>
    exact ⟨⟨(Store.finish_writer hother).mpr h.writer, hended, harrived⟩, Store.finish_db, by simp⟩

theorem Abandoned.run (h : Abandoned σ i d) (hrun : Run (Step V.service) σ evs σ') :
    Abandoned σ' i d ∧ σ'.store.db = σ.store.db ∧
      ∀ m ∈ evs, ∀ k w d', m.act ≠ .calls (.write k w) (.ok d') := by
  induction hrun with
  | nil => exact ⟨h, rfl, by simp⟩
  | snoc hrun hstep ih =>
    obtain ⟨habandoned, hdb, hwrites⟩ := ih
    obtain ⟨habandoned', hdb', hwrite⟩ := habandoned.step hstep
    refine ⟨habandoned', hdb'.trans hdb, ?_⟩
    intro m hm
    rcases List.mem_append.mp hm with hm | hm
    · exact hwrites m hm
    · exact List.mem_singleton.mp hm ▸ hwrite

end Holders

end Transactions
