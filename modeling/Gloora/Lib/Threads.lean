import Mathlib.Algebra.BigOperators.Group.Finset.Piecewise
import Gloora.Lib.Runs

/-!
# Requests served side by side

A program is a tree of calls to a store. A pool holds the programs that are still running,
and one move of it starts a program, answers the next call of one, or lets one end. The
calls of different programs interleave in any order; `traced` says that each program still
sees its own calls answered one after the other.
-/

namespace Threads
set_option autoImplicit false

open Runs

/-- A program: it is done, or makes a call and goes on with the answer. -/
inductive Prog (C R α : Type) where
  | done (a : α)
  | call (c : C) (next : R → Prog C R α)

namespace Prog
variable {C R α : Type} {p q : Prog C R α} {c : C} {r : R} {k : R → Prog C R α} {a : α}
  {l : List (C × R)}

/-- The calls `l`, with these answers, lead from `p` to `q`. -/
inductive Follows : Prog C R α → List (C × R) → Prog C R α → Prop where
  | nil (p : Prog C R α) : Follows p [] p
  | cons {c : C} {r : R} {k : R → Prog C R α} {q : Prog C R α} {l : List (C × R)} :
      Follows (k r) l q → Follows (.call c k) ((c, r) :: l) q

theorem Follows.snoc (h : Follows p l (.call c k)) (r : R) : Follows p (l ++ [(c, r)]) (k r) := by
  generalize hq : Prog.call c k = q at h
  induction h with
  | nil p =>
    subst hq
    exact .cons (.nil _)
  | cons _ ih => exact .cons (ih hq)

theorem follows_done : Follows (.done a) l q ↔ l = [] ∧ q = .done a := by
  constructor
  · intro h
    cases h
    exact ⟨rfl, rfl⟩
  · rintro ⟨rfl, rfl⟩
    exact .nil _

theorem follows_call : Follows (.call c k) l q ↔
    (l = [] ∧ q = .call c k) ∨ ∃ r l', l = (c, r) :: l' ∧ Follows (k r) l' q := by
  constructor
  · intro h
    cases h with
    | nil => exact .inl ⟨rfl, rfl⟩
    | cons h => exact .inr ⟨_, _, rfl, h⟩
  · intro h
    rcases h with ⟨rfl, rfl⟩ | ⟨r, l', rfl, h⟩
    · exact .nil _
    · exact .cons h

/-- Every call the program makes has `pre`, as long as the answers have `post`. -/
def Safe (pre : C → Prop) (post : C → R → Prop) : Prog C R α → Prop
  | .done _ => True
  | .call c k => pre c ∧ ∀ r, post c r → Safe pre post (k r)

variable {pre pre' : C → Prop} {post post' : C → R → Prop}

theorem Safe.mono (h : p.Safe pre post) (hpre : ∀ c, pre c → pre' c)
    (hpost : ∀ c r, post' c r → post c r) : p.Safe pre' post' := by
  induction p with
  | done x => trivial
  | call c k ih => exact ⟨hpre c h.1, fun r hr => ih r (h.2 r (hpost c r hr))⟩

theorem Follows.safe (h : Follows p l q) (hp : p.Safe pre post)
    (hpost : ∀ x ∈ l, post x.1 x.2) : (∀ x ∈ l, pre x.1) ∧ q.Safe pre post := by
  induction h with
  | nil p => exact ⟨by simp, hp⟩
  | cons _ ih =>
    obtain ⟨hc, hk⟩ := hp
    obtain ⟨hr, hl⟩ := List.forall_mem_cons.mp hpost
    obtain ⟨hpre, hq⟩ := ih (hk _ hr) hl
    exact ⟨List.forall_mem_cons.mpr ⟨hc, hpre⟩, hq⟩

end Prog

/-- A store `S` that answers the calls of the requests `A`. -/
structure Service (S A C R α : Type) where
  program : A → Prog C R α
  admits : S → A → Prop
  /-- The store may give this answer to a call of request `i`, and becomes the last argument. -/
  serves : S → Nat → C → R → S → Prop
  /-- What the end of request `i` with this result does to the store. -/
  ends : S → Nat → A → α → S

structure Thread (A C R α : Type) where
  input : A
  prog : Prog C R α

/-- The requests up to `next` have arrived, those in `threads` are running. -/
structure Pool (S A C R α : Type) where
  store : S
  next : Nat
  threads : Nat → Option (Thread A C R α)

inductive Act (C R α : Type) where
  | arrives
  | calls (c : C) (r : R)
  | ends (a : α)

structure Move (A C R α : Type) where
  id : Nat
  input : A
  act : Act C R α

variable {S A C R α : Type} {V : Service S A C R α}

def Pool.start (s : S) : Pool S A C R α := ⟨s, 0, fun _ => none⟩

/-- No request is running. -/
def Pool.Quiet (σ : Pool S A C R α) : Prop := ∀ i, σ.threads i = none

inductive Step (V : Service S A C R α) :
    Pool S A C R α → Move A C R α → Pool S A C R α → Prop where
  | arrives {σ : Pool S A C R α} {a : A} (hadmits : V.admits σ.store a) :
      Step V σ ⟨σ.next, a, .arrives⟩
        ⟨σ.store, σ.next + 1, Function.update σ.threads σ.next (some ⟨a, V.program a⟩)⟩
  | calls {σ : Pool S A C R α} {i : Nat} {a : A} {c : C} {k : R → Prog C R α} {r : R} {s : S}
      (hthread : σ.threads i = some ⟨a, .call c k⟩) (hserves : V.serves σ.store i c r s) :
      Step V σ ⟨i, a, .calls c r⟩ ⟨s, σ.next, Function.update σ.threads i (some ⟨a, k r⟩)⟩
  | ends {σ : Pool S A C R α} {i : Nat} {a : A} {x : α}
      (hthread : σ.threads i = some ⟨a, .done x⟩) :
      Step V σ ⟨i, a, .ends x⟩
        ⟨V.ends σ.store i a x, σ.next, Function.update σ.threads i none⟩

section Steps
variable {s : S} {σ σ' : Pool S A C R α} {evs : List (Move A C R α)} {m : Move A C R α} {i : Nat}

theorem Step.other (h : Step V σ m σ') (hi : i ≠ m.id) : σ'.threads i = σ.threads i := by
  cases h <;> exact Function.update_of_ne hi _ _

theorem Step.input_self {t : Thread A C R α} (h : Step V σ m σ') (ht : σ'.threads m.id = some t) :
    t.input = m.input := by
  cases h with
  | ends => simp at ht
  | _ =>
    obtain rfl : _ = t := by simpa using ht
    rfl

theorem Step.next_le (h : Step V σ m σ') : σ.next ≤ σ'.next := by
  cases h with
  | arrives => exact Nat.le_succ _
  | calls => exact Nat.le_refl _
  | ends => exact Nat.le_refl _

/-- An invariant of the store that every answer keeps, under what safe programs promise. -/
theorem run_invariant (I : S → Prop) {pre : C → Prop} {post : C → R → Prop}
    (hstart : I s) (hsafe : ∀ a, (V.program a).Safe pre post)
    (hserves : ∀ s i c r s', I s → pre c → V.serves s i c r s' → post c r ∧ I s')
    (hends : ∀ s i a x, I s → I (V.ends s i a x))
    (h : Run (Step V) (.start s) evs σ) :
    I σ.store ∧ (∀ m ∈ evs, ∀ c r, m.act = .calls c r → post c r) ∧
      ∀ i t, σ.threads i = some t → t.prog.Safe pre post := by
  induction h with
  | nil =>
    refine ⟨hstart, by simp, ?_⟩
    intro i t ht
    cases ht
  | @snoc es τ υ m _ hstep ih =>
    obtain ⟨hI, hposts, hthreads⟩ := ih
    suffices hnew : I υ.store ∧ (∀ c r, m.act = .calls c r → post c r) ∧
        ∀ t, υ.threads m.id = some t → t.prog.Safe pre post by
      obtain ⟨hI', hpost, hthread⟩ := hnew
      refine ⟨hI', ?_, ?_⟩
      · intro x hx
        rcases List.mem_append.mp hx with hx | hx
        · exact hposts x hx
        · exact List.mem_singleton.mp hx ▸ hpost
      · intro i t ht
        by_cases hi : i = m.id
        · exact hthread t (hi ▸ ht)
        · rw [hstep.other hi] at ht
          exact hthreads i t ht
    cases hstep with
    | @arrives a hadmits =>
      refine ⟨hI, by simp, ?_⟩
      intro t ht
      obtain rfl : _ = t := by simpa using ht
      exact hsafe a
    | @calls i a c k r s' hthread hanswer =>
      obtain ⟨hpre, hk⟩ := hthreads i _ hthread
      obtain ⟨hpost, hI'⟩ := hserves _ _ _ _ _ hI hpre hanswer
      refine ⟨hI', ?_, ?_⟩
      · rintro _ _ ⟨⟩
        exact hpost
      · intro t ht
        obtain rfl : _ = t := by simpa using ht
        exact hk r hpost
    | @ends i a x hthread =>
      refine ⟨hends _ _ _ _ hI, by simp, ?_⟩
      intro t ht
      simp at ht

end Steps

section Traces
variable {s : S} {σ σ' : Pool S A C R α} {evs : List (Move A C R α)} {m : Move A C R α} {i : Nat}
  {a : A} {l : List (C × R)}

/-- The moves of request `i`. -/
def movesOf (i : Nat) (evs : List (Move A C R α)) : List (Move A C R α) :=
  evs.filter fun m => m.id = i

theorem movesOf_snoc_self (evs : List (Move A C R α)) (m : Move A C R α) :
    movesOf m.id (evs ++ [m]) = movesOf m.id evs ++ [m] := by
  simp [movesOf]

theorem movesOf_snoc_other (evs : List (Move A C R α)) (hi : i ≠ m.id) :
    movesOf i (evs ++ [m]) = movesOf i evs := by
  simp [movesOf, hi.symm]

/-- What request `i` with this input has done after the calls `l`. -/
def served (i : Nat) (a : A) (l : List (C × R)) : List (Move A C R α) :=
  ⟨i, a, .arrives⟩ :: l.map fun x => ⟨i, a, .calls x.1 x.2⟩

theorem served_snoc (i : Nat) (a : A) (l : List (C × R)) (c : C) (r : R) :
    (served i a (l ++ [(c, r)]) : List (Move A C R α)) = served i a l ++ [⟨i, a, .calls c r⟩] := by
  simp [served]

/-- Each request sees its own calls answered one after the other. -/
inductive Traced (V : Service S A C R α) (evs : List (Move A C R α)) (σ : Pool S A C R α)
    (i : Nat) : Prop where
  | fresh (hi : σ.next ≤ i) (hthread : σ.threads i = none) (hmoves : movesOf i evs = [])
  | running (a : A) (l : List (C × R)) (p : Prog C R α) (hi : i < σ.next)
      (hthread : σ.threads i = some ⟨a, p⟩) (hfollows : (V.program a).Follows l p)
      (hmoves : movesOf i evs = served i a l)
  | ended (a : A) (l : List (C × R)) (x : α) (hi : i < σ.next) (hthread : σ.threads i = none)
      (hfollows : (V.program a).Follows l (.done x))
      (hmoves : movesOf i evs = served i a l ++ [⟨i, a, .ends x⟩])

theorem Traced.running_of {t : Thread A C R α} (h : Traced V evs σ i)
    (hthread : σ.threads i = some t) : ∃ l, i < σ.next ∧ (V.program t.input).Follows l t.prog ∧
      movesOf i evs = served i t.input l := by
  cases h with
  | fresh hi hnone _ => simp [hnone] at hthread
  | running a l p hi hsome hfollows hmoves =>
    obtain rfl : _ = t := Option.some.inj (hsome.symm.trans hthread)
    exact ⟨l, hi, hfollows, hmoves⟩
  | ended a l x hi hnone _ _ => simp [hnone] at hthread

theorem Traced.other (h : Traced V evs σ i) (hstep : Step V σ m σ') (hi : i ≠ m.id) :
    Traced V (evs ++ [m]) σ' i := by
  have hthreads := hstep.other hi
  have hmoves := movesOf_snoc_other evs hi
  cases h with
  | fresh hfresh hthread hnil =>
    refine .fresh ?_ (hthreads.trans hthread) (hmoves.trans hnil)
    cases hstep with
    | arrives => exact Nat.lt_of_le_of_ne hfresh (Ne.symm hi)
    | calls => exact hfresh
    | ends => exact hfresh
  | running a l p hlt hthread hfollows hl =>
    exact .running a l p (Nat.lt_of_lt_of_le hlt hstep.next_le) (hthreads.trans hthread) hfollows
      (hmoves.trans hl)
  | ended a l x hlt hthread hfollows hl =>
    exact .ended a l x (Nat.lt_of_lt_of_le hlt hstep.next_le) (hthreads.trans hthread) hfollows
      (hmoves.trans hl)

theorem traced (h : Run (Step V) (.start s) evs σ) (i : Nat) : Traced V evs σ i := by
  induction h generalizing i with
  | nil => exact .fresh (Nat.zero_le i) rfl rfl
  | @snoc es τ υ m hrun hstep ih =>
    by_cases hi : i = m.id
    · subst hi
      have hmoves := movesOf_snoc_self es m
      cases hstep with
      | @arrives a hadmits =>
        have hnil : movesOf τ.next es = [] := by
          cases ih τ.next with
          | fresh _ _ hnil => exact hnil
          | running _ _ _ hi => exact absurd hi (Nat.lt_irrefl _)
          | ended _ _ _ hi => exact absurd hi (Nat.lt_irrefl _)
        rw [hnil] at hmoves
        exact .running a [] (V.program a) (Nat.lt_succ_self _) (Function.update_self _ _ _)
          (.nil _) hmoves
      | @calls i a c k r s' hthread hserves =>
        obtain ⟨l, hlt, hfollows, hl⟩ := (ih i).running_of hthread
        rw [hl, ← served_snoc] at hmoves
        exact .running a (l ++ [(c, r)]) (k r) hlt (Function.update_self _ _ _) (hfollows.snoc r)
          hmoves
      | @ends i a x hthread =>
        obtain ⟨l, hlt, hfollows, hl⟩ := (ih i).running_of hthread
        rw [hl] at hmoves
        exact .ended a l x hlt (Function.update_self _ _ _) hfollows hmoves
    · exact (ih i).other hstep hi

def Move.call? (m : Move A C R α) : Option (C × R) :=
  match m.act with
  | .calls c r => some (c, r)
  | _ => none

def Move.isArrival (m : Move A C R α) : Bool :=
  match m.act with
  | .arrives => true
  | _ => false

/-- The calls of request `i`, with their answers. -/
def callsOf (i : Nat) (evs : List (Move A C R α)) : List (C × R) :=
  (movesOf i evs).filterMap Move.call?

theorem callsOf_snoc (evs : List (Move A C R α)) (m : Move A C R α) (i : Nat) :
    callsOf i (evs ++ [m]) = callsOf i evs ++ (if m.id = i then m.call? else none).toList := by
  by_cases hi : m.id = i
  · cases hcall : m.call? <;> simp [callsOf, movesOf, hi, hcall]
  · simp [callsOf, movesOf, hi]

theorem mem_callsOf {x : C × R} (h : x ∈ callsOf i evs) :
    ∃ m ∈ evs, m.id = i ∧ m.act = .calls x.1 x.2 := by
  obtain ⟨m, hm, hcall⟩ := List.mem_filterMap.mp h
  obtain ⟨hm, hi⟩ := List.mem_filter.mp hm
  refine ⟨m, hm, by simpa using hi, ?_⟩
  unfold Move.call? at hcall
  split at hcall
  · rename_i c r hact
    obtain rfl := Option.some.inj hcall
    exact hact
  · cases hcall

theorem call?_served (i : Nat) (a : A) (l : List (C × R)) :
    (served i a l : List (Move A C R α)).filterMap Move.call? = l := by
  induction l with
  | nil => rfl
  | cons x l ih =>
    simp only [served, List.filterMap_cons, List.map_cons, Move.call?] at ih ⊢
    rw [ih]

theorem follows_callsOf {t : Thread A C R α} (h : Run (Step V) (.start s) evs σ)
    (ht : σ.threads i = some t) : (V.program t.input).Follows (callsOf i evs) t.prog := by
  obtain ⟨l, -, hfollows, hmoves⟩ := (traced h i).running_of ht
  rw [callsOf, hmoves, call?_served]
  exact hfollows

theorem follows_ended {x : α} (h : Run (Step V) (.start s) evs σ)
    (hx : (⟨i, a, .ends x⟩ : Move A C R α) ∈ evs) :
    (V.program a).Follows (callsOf i evs) (.done x) ∧
      movesOf i evs = served i a (callsOf i evs) ++ [⟨i, a, .ends x⟩] := by
  have hmem : (⟨i, a, .ends x⟩ : Move A C R α) ∈ movesOf i evs := List.mem_filter.mpr ⟨hx, by simp⟩
  cases traced h i with
  | fresh _ _ hmoves => simp [hmoves] at hmem
  | running b l p _ _ _ hmoves =>
    rw [hmoves] at hmem
    simp [served] at hmem
  | ended b l y _ _ hfollows hmoves =>
    rw [hmoves] at hmem
    obtain ⟨rfl, rfl⟩ : a = b ∧ x = y := by simpa [served] using hmem
    have hcalls : callsOf i evs = l := by
      rw [callsOf, hmoves, List.filterMap_append, call?_served]
      simp [Move.call?]
    rw [hcalls]
    exact ⟨hfollows, hmoves⟩

theorem idle_of_ended {x : α} (h : Run (Step V) (.start s) evs σ)
    (hx : (⟨i, a, .ends x⟩ : Move A C R α) ∈ evs) : i < σ.next ∧ σ.threads i = none := by
  have hmem : (⟨i, a, .ends x⟩ : Move A C R α) ∈ movesOf i evs := List.mem_filter.mpr ⟨hx, by simp⟩
  cases traced h i with
  | fresh _ _ hmoves => simp [hmoves] at hmem
  | running b l p _ _ _ hmoves =>
    rw [hmoves] at hmem
    simp [served] at hmem
  | ended _ _ _ hi hthread _ _ => exact ⟨hi, hthread⟩

/-- A request that has ended makes no further move. -/
theorem Step.not_ended {x : α} (hstep : Step V σ m σ') (h : Run (Step V) (.start s) evs σ)
    (hx : (⟨i, a, .ends x⟩ : Move A C R α) ∈ evs) : i ≠ m.id := by
  obtain ⟨hlt, hnone⟩ := idle_of_ended h hx
  rintro rfl
  cases hstep with
  | arrives => exact Nat.lt_irrefl _ hlt
  | calls hthread => simp [hnone] at hthread
  | ends hthread => simp [hnone] at hthread

theorem input_served (hm : m ∈ (served i a l : List (Move A C R α))) : m.input = a := by
  rcases List.mem_cons.mp hm with rfl | hm
  · rfl
  · obtain ⟨c, -, rfl⟩ := List.mem_map.mp hm
    rfl

theorem input_of_running {t : Thread A C R α} (h : Run (Step V) (.start s) evs σ)
    (ht : σ.threads i = some t) (hm : m ∈ evs) (hi : m.id = i) : m.input = t.input := by
  obtain ⟨l, -, -, hmoves⟩ := (traced h i).running_of ht
  have hmem : m ∈ movesOf i evs := List.mem_filter.mpr ⟨hm, by simpa using hi⟩
  exact input_served (hmoves ▸ hmem)

/-- All moves of a request carry the same input. -/
theorem input_of_ended {x : α} (h : Run (Step V) (.start s) evs σ)
    (hx : (⟨i, a, .ends x⟩ : Move A C R α) ∈ evs) (hm : m ∈ evs) (hi : m.id = i) :
    m.input = a := by
  have hmem : m ∈ movesOf i evs := List.mem_filter.mpr ⟨hm, by simpa using hi⟩
  rw [(follows_ended h hx).2] at hmem
  rcases List.mem_append.mp hmem with hmem | hmem
  · exact input_served hmem
  · obtain rfl := List.mem_singleton.mp hmem
    rfl

theorem quiet_of_lt (h : Run (Step V) (.start s) evs σ)
    (hall : ∀ i < σ.next, (σ.threads i).isNone = true) : σ.Quiet := by
  intro i
  cases traced h i with
  | fresh _ hthread _ => exact hthread
  | running _ _ _ hi _ _ _ => exact Option.isNone_iff_eq_none.mp (hall i hi)
  | ended _ _ _ _ hthread _ _ => exact hthread

/-- A sum over all moves is the sum of the sums over each request's moves. -/
theorem sum_moves {M : Type} [AddCommMonoid M] (f : Move A C R α → M) {n : Nat}
    (hids : ∀ m ∈ evs, m.id < n) :
    (evs.map f).sum = ∑ i ∈ Finset.range n, ((movesOf i evs).map f).sum := by
  induction evs with
  | nil => simp [movesOf]
  | cons m evs ih =>
    obtain ⟨hm, hevs⟩ := List.forall_mem_cons.mp hids
    have hpoint : ∀ i, ((movesOf i (m :: evs)).map f).sum =
        (if m.id = i then f m else 0) + ((movesOf i evs).map f).sum := by
      intro i
      by_cases hi : m.id = i <;> simp [movesOf, hi]
    simp only [List.map_cons, List.sum_cons, ih hevs, hpoint, Finset.sum_add_distrib,
      Finset.sum_ite_eq, Finset.mem_range, hm, if_true]

theorem countP_moves (p : Move A C R α → Bool) {n : Nat} (hids : ∀ m ∈ evs, m.id < n) :
    evs.countP p = ∑ i ∈ Finset.range n, (movesOf i evs).countP p := by
  have hcount : ∀ l : List (Move A C R α), (l.map fun m => if p m then 1 else 0).sum = l.countP p := by
    intro l
    induction l with
    | nil => rfl
    | cons m l ih =>
      rw [List.map_cons, List.sum_cons, ih, List.countP_cons, Nat.add_comm]
  rw [← hcount, sum_moves _ hids]
  exact Finset.sum_congr rfl fun i _ => hcount _

theorem ids_lt (h : Run (Step V) (.start s) evs σ) : ∀ m ∈ evs, m.id < σ.next := by
  intro m hm
  have hmem : m ∈ movesOf m.id evs := List.mem_filter.mpr ⟨hm, by simp⟩
  cases traced h m.id with
  | fresh _ _ hnil => simp [hnil] at hmem
  | running _ _ _ hi => exact hi
  | ended _ _ _ hi => exact hi

end Traces

end Threads
