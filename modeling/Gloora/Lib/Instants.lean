import Gloora.Lib.Transactions

/-!
# Requests that take effect at one moment

A brief program looks at the store once, or writes once and commits, and is done. However
its calls interleave with those of any other programs, it acts as if it had been served as a
whole at one of its own moves.
-/

namespace Transactions
set_option autoImplicit false

open Runs Threads

variable {A W E D α J : Type} {V : Site A W E D α J}

section Brief
variable {p : Prog (Command W) (Except E D) α} {next after : Except E D → Prog (Command W) (Except E D) α}
  {db d : D} {x : α} {k : Nat} {w : W} {failed : E → α}

/-- Served alone from `db`, the program can end in `db'` with the result `x`. -/
def Takes (V : Site A W E D α J) (p : Prog (Command W) (Except E D) α) (db db' : D) (x : α) : Prop :=
  ∃ accepts, V.alone accepts p db db = (db', x)

/-- One read, or one write with its commit, whose refusals are answered alike.
A read that is refused ends the program. -/
inductive Brief : Prog (Command W) (Except E D) α → Prop where
  | done (x : α) : Brief (.done x)
  | reads {next : Except E D → Prog (Command W) (Except E D) α} {reply : D → α}
      (hnext : ∀ view, next (.ok view) = .done (reply view))
      (herror : ∀ e, ∃ x, next (.error e) = .done x) : Brief (.call .read next)
  | saves {k : Nat} {w : W} {next after : Except E D → Prog (Command W) (Except E D) α} {x : α}
      {failed : E → α} (hwrite : ∀ d, next (.ok d) = .call (.commit k) after)
      (hfailed : ∀ e, next (.error e) = .done (failed e)) (hcommit : ∀ d, after (.ok d) = .done x)
      (hlost : ∀ e, after (.error e) = .done (failed e)) : Brief (.call (.write k w) next)

/-- Every result the program can end with has `U`. -/
def Ends (U : α → Prop) : Prog (Command W) (Except E D) α → Prop
  | .done x => U x
  | .call _ next => ∀ r, Ends U (next r)

theorem alone_ends {U : α → Prop} (accepts : Nat → Bool) (hp : Ends U p) (db view : D) :
    U (V.alone accepts p db view).2 := by
  induction p generalizing db view with
  | done x => exact hp
  | call c next ih =>
    cases c with
    | read => exact ih _ (hp _) _ _
    | write k w =>
      rw [Site.alone]
      split
      · split <;> exact ih _ (hp _) _ _
      · exact ih _ (hp _) _ _
    | commit k =>
      rw [Site.alone]
      split <;> exact ih _ (hp _) _ _

/-- A refused read ends the program with `lost`. -/
def Aborts (lost : E → α) : Prog (Command W) (Except E D) α → Prop
  | .done _ => True
  | .call .read next => (∀ e, next (.error e) = .done (lost e)) ∧ ∀ d, Aborts lost (next (.ok d))
  | .call _ next => ∀ r, Aborts lost (next r)

theorem follows_aborts {lost : E → α} {l : List (Command W × Except E D)} {e : E}
    (hp : Aborts lost p) (h : p.Follows l (.done x)) (he : (.read, .error e) ∈ l) : x = lost e := by
  generalize hq : Prog.done x = q at h
  induction h with
  | nil => cases he
  | @cons c r next _ l h ih =>
    cases c with
    | read =>
      cases r with
      | ok d =>
        apply ih (hp.2 d) _ hq
        simpa using he
      | error e' =>
        rw [hp.1] at h
        subst hq
        obtain ⟨rfl, hx⟩ := Prog.follows_done.mp h
        obtain rfl : e = e' := by simpa using he
        exact Prog.done.inj hx
    | _ =>
      apply ih (hp r) _ hq
      simpa using he

theorem takes_done : Takes V (.done x) db db x := ⟨fun _ => true, rfl⟩

theorem takes_read {db' : D} (h : Takes V (next (.ok db)) db db' x) :
    Takes V (.call .read next) db db' x := h

theorem takes_saved (hexec : V.exec db w = some d) (hwrite : next (.ok d) = .call (.commit k) after)
    (hcommit : after (.ok d) = .done x) : Takes V (.call (.write k w) next) db d x := by
  refine ⟨fun _ => true, ?_⟩
  simp only [Site.alone, hexec, if_true, hwrite, hcommit]

theorem takes_conflict (hexec : V.exec db w = none) (hfailed : next (.error V.conflict) = .done x) :
    Takes V (.call (.write k w) next) db db x := by
  refine ⟨fun _ => true, ?_⟩
  simp only [Site.alone, hexec, if_true, hfailed]

theorem takes_refused (hfailed : next (.error V.busy) = .done x) :
    Takes V (.call (.write k w) next) db db x := by
  refine ⟨fun _ => false, ?_⟩
  simp only [Site.alone, Bool.false_eq_true, if_false, hfailed]

end Brief

section Standing
variable {s s' : Store D J} {i j : Nat} {a : A} {c : Command W} {r : Except E D}
  {p : Prog (Command W) (Except E D) α} {next : Except E D → Prog (Command W) (Except E D) α}
  {σ σ' : State A W E D α J} {m : Event A W E D α}

/-- A brief request that has not taken effect yet: what its program still does is what it
would do as a whole, and once it has written it holds the lock. -/
inductive Standing (V : Site A W E D α J) (s : Store D J) (i : Nat) (a : A) :
    Prog (Command W) (Except E D) α → Prop where
  | waits {p : Prog (Command W) (Except E D) α} (hp : Brief p)
      (hlock : ∀ d, s.writer ≠ some (i, d))
      (hsame : ∀ db db' x, Takes V p db db' x → Takes V (V.program a) db db' x) : Standing V s i a p
  | wrote {k : Nat} {after : Except E D → Prog (Command W) (Except E D) α} {d : D} {x : α}
      {failed : E → α} (hcommit : ∀ d, after (.ok d) = .done x)
      (hlost : ∀ e, after (.error e) = .done (failed e)) (hwriter : s.writer = some (i, d))
      (hsaved : Takes V (V.program a) s.db d x)
      (hrefused : Takes V (V.program a) s.db s.db (failed V.busy)) :
      Standing V s i a (.call (.commit k) after)

/-- What an answer makes of such a request: it has taken effect, or stands as before, or one
of its reads was refused. -/
theorem Standing.answered (h : Standing V s i a (.call c next)) (hserves : Serves V s i c r s') :
    (∃ x, next r = .done x ∧ Takes V (V.program a) s.db s'.db x) ∨
      (s'.db = s.db ∧ Standing V s' i a (next r)) ∨
      (s'.db = s.db ∧ c = .read ∧ (∃ e, r = .error e) ∧ ∃ x, next r = .done x) := by
  cases h with
  | waits hp hlock hsame =>
    have hview : s.view i = s.db := Store.view_of_other hlock
    cases hp with
    | reads hnext herror =>
      cases hserves with
      | read =>
        refine .inl ⟨_, hnext _, ?_⟩
        apply hsame
        apply takes_read
        rw [hview, hnext]
        exact takes_done
      | refused => exact .inr (.inr ⟨rfl, rfl, ⟨_, rfl⟩, herror _⟩)
    | saves hwrite hfailed hcommit hlost =>
      cases hserves with
      | @write _ _ d hfree hexec =>
        rw [hview] at hexec
        refine .inr (.inl ⟨rfl, ?_⟩)
        rw [hwrite]
        exact .wrote hcommit hlost rfl (hsame _ _ _ (takes_saved hexec (hwrite d) (hcommit d)))
          (hsame _ _ _ (takes_refused (hfailed _)))
      | violates hfree hexec =>
        rw [hview] at hexec
        exact .inl ⟨_, hfailed _, hsame _ _ _ (takes_conflict hexec (hfailed _))⟩
      | refused => exact .inl ⟨_, hfailed _, hsame _ _ _ (takes_refused (hfailed _))⟩
  | wrote hcommit hlost hwriter hsaved hrefused =>
    cases hserves with
    | commit =>
      refine .inl ⟨_, hcommit _, ?_⟩
      rw [Store.view_of_writer hwriter]
      exact hsaved
    | refused => exact .inl ⟨_, hlost _, hrefused⟩

theorem Standing.ended {x : α} (h : Standing V s i a (.done x)) :
    Takes V (V.program a) s.db s.db x := by
  cases h with
  | waits _ _ hsame => exact hsame _ _ _ takes_done

/-- The lock keeps the moves of the other requests out. -/
theorem Standing.other {t : Thread A (Command W) (Except E D) α} (h : Standing V σ.store j t.input t.prog)
    (hstep : Step V.service σ m σ') (hj : j ≠ m.id) : Standing V σ'.store j t.input t.prog := by
  suffices hkept : (∀ d, σ.store.writer = some (j, d) → σ'.store.writer = some (j, d) ∧
      σ'.store.db = σ.store.db) ∧ ((∀ d, σ.store.writer ≠ some (j, d)) →
        ∀ d, σ'.store.writer ≠ some (j, d)) by
    generalize t.prog = p at h ⊢
    cases h with
    | waits hp hlock hsame => exact .waits hp (hkept.2 hlock) hsame
    | wrote hcommit hlost hwriter hsaved hrefused =>
      obtain ⟨hwriter', hdb⟩ := hkept.1 _ hwriter
      rw [← hdb] at hsaved hrefused
      exact .wrote hcommit hlost hwriter' hsaved hrefused
  cases hstep with
  | arrives => exact ⟨fun _ hw => ⟨hw, rfl⟩, id⟩
  | calls hthread hserves =>
    obtain ⟨hheld, hidle⟩ := Serves.others hserves hj
    refine ⟨?_, hidle⟩
    intro d hw
    rw [hheld d hw]
    exact ⟨hw, rfl⟩
  | @ends i b y hthread =>
    refine ⟨fun d hw => ⟨?_, Store.finish_db⟩, fun hidle d hw => ?_⟩
    · exact (Store.finish_writer hj).mpr hw
    · exact hidle d (Store.of_finish_writer hw)

end Standing

section Instants
variable {brief : A → Prop} {db : D} {side : J} {σ σ' : State A W E D α J}
  {evs : List (Event A W E D α)} {es : List (Event A W E D α × Option α)} {m : Event A W E D α}
  {i : Nat} {a : A} {x : α} {o : Option α}

/-- A move, marked with a result if a brief request takes effect in it. Its other moves leave
the committed state as it is. -/
def Instant (V : Site A W E D α J) (brief : A → Prop) (σ : State A W E D α J)
    (e : Event A W E D α × Option α) (σ' : State A W E D α J) : Prop :=
  Step V.service σ e.1 σ' ∧ (brief e.1.input →
    match e.2 with
    | none => σ'.store.db = σ.store.db
    | some x => Takes V (V.program e.1.input) σ.store.db σ'.store.db x)

theorem unmarked (h : Run (Instant V brief) σ es σ') :
    Run (Step V.service) σ (es.map Prod.fst) σ' := by
  induction h with
  | nil => exact .nil
  | snoc _ hstep ih =>
    rw [List.map_append]
    exact .snoc ih hstep.1

/-- The marks on the moves of request `i`. -/
def marks (i : Nat) (es : List (Event A W E D α × Option α)) : List α :=
  es.filterMap fun e => if e.1.id = i then e.2 else none

theorem marks_snoc_self (es : List (Event A W E D α × Option α)) (m : Event A W E D α)
    (o : Option α) : marks m.id (es ++ [(m, o)]) = marks m.id es ++ o.toList := by
  cases o <;> simp [marks]

theorem marks_snoc_other (es : List (Event A W E D α × Option α)) (o : Option α) (hi : i ≠ m.id) :
    marks i (es ++ [(m, o)]) = marks i es := by
  simp [marks, hi.symm]

theorem marks_snoc_none (es : List (Event A W E D α × Option α)) (m : Event A W E D α) :
    marks i (es ++ [(m, none)]) = marks i es := by
  simp [marks]

def RefusedRead (i : Nat) (evs : List (Event A W E D α)) : Prop :=
  ∃ e : E, (.read, .error e) ∈ callsOf i evs

/-- What is known of request `i` in a marked run, as long as its program stands at `p`. -/
inductive Progress (V : Site A W E D α J) (s : Store D J) (es : List (Event A W E D α × Option α))
    (i : Nat) (a : A) (p : Prog (Command W) (Except E D) α) : Prop where
  | standing (h : Standing V s i a p) (hmarks : marks i es = [])
  | acted (x : α) (h : p = .done x) (hmarks : marks i es = [x])
  | refused (x : α) (h : p = .done x) (hmarks : marks i es = [])
      (hread : RefusedRead i (es.map Prod.fst))

/-- The marks of a brief request that has ended with `x`. -/
def Settled (es : List (Event A W E D α × Option α)) (i : Nat) (x : α) : Prop :=
  marks i es = [x] ∨ (marks i es = [] ∧ RefusedRead i (es.map Prod.fst))

theorem refusedRead_snoc (h : RefusedRead i evs) (m : Event A W E D α) :
    RefusedRead i (evs ++ [m]) := by
  obtain ⟨e, he⟩ := h
  refine ⟨e, ?_⟩
  rw [callsOf_snoc]
  exact List.mem_append_left _ he

theorem Progress.other {t : Thread A (Command W) (Except E D) α}
    (h : Progress V σ.store es i t.input t.prog) (hstep : Step V.service σ m σ') (hi : i ≠ m.id)
    (o : Option α) : Progress V σ'.store (es ++ [(m, o)]) i t.input t.prog := by
  have hmarks' := marks_snoc_other es o hi
  cases h with
  | standing h hmarks => exact .standing (h.other hstep hi) (hmarks'.trans hmarks)
  | acted x h hmarks => exact .acted x h (hmarks'.trans hmarks)
  | refused x h hmarks hread =>
    refine .refused x h (hmarks'.trans hmarks) ?_
    rw [List.map_append]
    exact refusedRead_snoc hread m

theorem exists_mark (h : x ∈ marks i es) : ∃ m, (m, some x) ∈ es ∧ m.id = i := by
  obtain ⟨⟨m, o⟩, he, ho⟩ := List.mem_filterMap.mp h
  simp only [Option.ite_none_right_eq_some] at ho
  obtain ⟨hi, rfl⟩ := ho
  exact ⟨m, he, hi⟩

/-- The later moves of other requests do not change what is known of a request. -/
theorem Settled.of_snoc (h : Settled (es ++ [(m, o)]) i x) (hi : i ≠ m.id) : Settled es i x := by
  rcases h with hmarks | ⟨hmarks, e, he⟩
  · exact .inl ((marks_snoc_other es o hi).symm.trans hmarks)
  · refine .inr ⟨(marks_snoc_other es o hi).symm.trans hmarks, e, ?_⟩
    rwa [List.map_append, List.map_singleton, callsOf_other hi] at he

theorem Settled.snoc (h : Settled es i x) (hi : i ≠ m.id) (o : Option α) :
    Settled (es ++ [(m, o)]) i x := by
  have hmarks' := marks_snoc_other es o hi
  rcases h with hmarks | ⟨hmarks, hread⟩
  · exact .inl (hmarks'.trans hmarks)
  · refine .inr ⟨hmarks'.trans hmarks, ?_⟩
    rw [List.map_append]
    exact refusedRead_snoc hread m

/-- One more call of a brief request, with the mark it gets. -/
theorem Progress.calls {s s' : Store D J} {c : Command W}
    {next : Except E D → Prog (Command W) (Except E D) α} {r : Except E D}
    (h : Progress V s es i a (.call c next)) (hserves : Serves V s i c r s') :
    ∃ o, (match o with
      | none => s'.db = s.db
      | some x => Takes V (V.program a) s.db s'.db x) ∧
      Progress V s' (es ++ [(⟨i, a, .calls c r⟩, o)]) i a (next r) := by
  cases h with
  | acted x h _ => cases h
  | refused x h _ _ => cases h
  | standing h hmarks =>
    rcases h.answered hserves with ⟨x, hx, htakes⟩ | ⟨hdb, hstanding⟩ | ⟨hdb, rfl, ⟨e, rfl⟩, x, hx⟩
    · refine ⟨some x, htakes, .acted x hx ?_⟩
      rw [marks_snoc_self es ⟨i, a, .calls c r⟩, hmarks]
      rfl
    · refine ⟨none, hdb, .standing hstanding ?_⟩
      rw [marks_snoc_none, hmarks]
    · refine ⟨none, hdb, .refused x hx ?_ ⟨e, ?_⟩⟩
      · rw [marks_snoc_none, hmarks]
      · rw [List.map_append, List.map_singleton, callsOf_snoc_calls]
        simp

/-- The end of a brief request, with the mark it gets. -/
theorem Progress.ends {s : Store D J} (h : Progress V s es i a (.done x)) :
    ∃ o, (match o with
      | none => True
      | some x => Takes V (V.program a) s.db s.db x) ∧
      Settled (es ++ [(⟨i, a, .ends x⟩, o)]) i x := by
  cases h with
  | standing h hmarks =>
    refine ⟨some x, h.ended, .inl ?_⟩
    rw [marks_snoc_self es ⟨i, a, .ends x⟩, hmarks]
    rfl
  | acted y h hmarks =>
    cases h
    refine ⟨none, trivial, .inl ?_⟩
    rw [marks_snoc_none, hmarks]
  | refused y h hmarks hread =>
    cases h
    refine ⟨none, trivial, .inr ⟨?_, ?_⟩⟩
    · rw [marks_snoc_none, hmarks]
    · rw [List.map_append]
      exact refusedRead_snoc hread _

theorem marks_fresh (hall : ∀ e ∈ es, e.1.id ≠ i) : marks i es = [] := by
  apply List.filterMap_eq_nil_iff.mpr
  intro e he
  rw [if_neg (hall e he)]

/-- One move, with the mark it gets. -/
theorem marked_step (hbrief : ∀ a, brief a → Brief (V.program a))
    (hrun : Run (Step V.service) (Site.start db side) (es.map Prod.fst) σ)
    (hstep : Step V.service σ m σ')
    (hthreads : ∀ i t, σ.threads i = some t → brief t.input →
      Progress V σ.store es i t.input t.prog) :
    ∃ o, Instant V brief σ (m, o) σ' ∧
      (∀ t, σ'.threads m.id = some t → brief t.input →
        Progress V σ'.store (es ++ [(m, o)]) m.id t.input t.prog) ∧
      ∀ x, m.act = .ends x → brief m.input → Settled (es ++ [(m, o)]) m.id x := by
  have hstep' := hstep
  cases hstep with
  | @arrives a hadmits =>
    refine ⟨none, ⟨hstep', fun _ => rfl⟩, ?_, ?_⟩
    · intro t ht hb
      obtain rfl : _ = t := by simpa using ht
      refine .standing (.waits (hbrief a hb) ?_ fun _ _ _ => id) ?_
      · exact fun d hw => Nat.lt_irrefl _ ((coherent hrun).2 _ d hw)
      · rw [marks_snoc_none]
        apply marks_fresh
        intro e he
        exact Nat.ne_of_lt (ids_lt hrun e.1 (List.mem_map_of_mem he))
    · intro x hact
      cases hact
  | @calls i a c next r s' hthread hserves =>
    by_cases hb : brief a
    · obtain ⟨o, ho, hprogress⟩ := (hthreads i _ hthread hb).calls hserves
      refine ⟨o, ⟨hstep', fun _ => ho⟩, ?_, ?_⟩
      · intro t ht _
        obtain rfl : _ = t := by simpa using ht
        exact hprogress
      · intro x hact
        cases hact
    · refine ⟨none, ⟨hstep', fun h => absurd h hb⟩, ?_, ?_⟩
      · intro t ht ht'
        obtain rfl : _ = t := by simpa using ht
        exact absurd ht' hb
      · intro x hact
        cases hact
  | @ends i a x hthread =>
    have hidle : ∀ t, (Function.update σ.threads i none) i = some t → False := by simp
    by_cases hb : brief a
    · obtain ⟨o, ho, hsettled⟩ := (hthreads i _ hthread hb).ends
      refine ⟨o, ⟨hstep', fun _ => ?_⟩, fun t ht => absurd ht (hidle t), ?_⟩
      · have hdb : (V.service.ends σ.store i a x).db = σ.store.db := Store.finish_db
        cases o with
        | none => exact hdb
        | some y => exact hdb.symm ▸ ho
      · rintro _ ⟨⟩ _
        exact hsettled
    · exact ⟨none, ⟨hstep', fun h => absurd h hb⟩, fun t ht => absurd ht (hidle t),
        fun _ _ h => absurd h hb⟩

/-- Every run can be marked so that each brief request takes effect once. -/
theorem run_marked (hbrief : ∀ a, brief a → Brief (V.program a))
    (h : Run (Step V.service) (Site.start db side) evs σ) :
    ∃ es, Run (Instant V brief) (Site.start db side) es σ ∧ es.map Prod.fst = evs ∧
      (∀ i t, σ.threads i = some t → brief t.input → Progress V σ.store es i t.input t.prog) ∧
      ∀ i a x, ⟨i, a, .ends x⟩ ∈ evs → brief a → Settled es i x := by
  induction h with
  | nil => exact ⟨[], .nil, rfl, by simp [Site.start, Pool.start], by simp⟩
  | @snoc _ τ υ m hrun hstep ih =>
    obtain ⟨es, hes, rfl, hthreads, hsettled⟩ := ih
    obtain ⟨o, hinstant, hself, hends⟩ := marked_step hbrief hrun hstep hthreads
    refine ⟨es ++ [(m, o)], .snoc hes hinstant, by simp, ?_, ?_⟩
    · intro i t ht hb
      by_cases hi : i = m.id
      · subst hi
        exact hself t ht hb
      · rw [hstep.other hi] at ht
        exact (hthreads i t ht hb).other hstep hi o
    · intro i a x hx hb
      rcases List.mem_append.mp hx with hx | hx
      · exact (hsettled i a x hx hb).snoc (hstep.not_ended hrun hx) o
      · obtain rfl := List.mem_singleton.mp hx
        exact hends x rfl hb

end Instants

end Transactions
