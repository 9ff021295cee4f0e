import Mathlib
import Gloora.Lib.Transactions

/-!
# What a run can cost

The calls of a program cost no more than it is granted, whatever runs beside it, so a run
costs no more than what is granted to the requests that arrive in it. In the same way the
tables grow by no more than the writes of the run can add.
-/

namespace Threads
set_option autoImplicit false

open Runs

namespace Prog
variable {C R α : Type} {p q : Prog C R α} {l : List (C × R)} {cost : C → Nat} {post : R → Prop}
  {n m : Nat}

/-- The calls of the program cost at most `n` in all, as long as the answers have `post`. -/
inductive Within (cost : C → Nat) (post : R → Prop) : Nat → Prog C R α → Prop where
  | done (n : Nat) (x : α) : Within cost post n (.done x)
  | call {n : Nat} {c : C} {k : R → Prog C R α} (h : ∀ r, post r → Within cost post n (k r)) :
      Within cost post (n + cost c) (.call c k)

theorem Within.mono (h : Within cost post n p) (hnm : n ≤ m) : Within cost post m p := by
  induction h generalizing m with
  | done n x => exact .done m x
  | @call n c k h ih =>
    obtain ⟨m, rfl⟩ := Nat.exists_eq_add_of_le' (Nat.le_trans (Nat.le_add_left _ _) hnm)
    exact .call fun r hr => ih r hr (Nat.le_of_add_le_add_right hnm)

theorem within_free (h : p.Safe (fun c => cost c = 0) fun _ r => post r) : Within cost post 0 p := by
  induction p with
  | done x => exact .done 0 x
  | call c k ih =>
    obtain ⟨hc, hk⟩ := h
    have hcall : Within cost post (0 + cost c) (.call c k) := .call fun r hr => ih r (hk r hr)
    rwa [hc] at hcall

theorem Within.sum_le (h : Within cost post n p) (hl : Follows p l q) (hpost : ∀ x ∈ l, post x.2) :
    (l.map fun x => cost x.1).sum ≤ n := by
  induction hl generalizing n with
  | nil => exact Nat.zero_le n
  | @cons c r k q l hl ih =>
    obtain ⟨hr, hrest⟩ := List.forall_mem_cons.mp hpost
    cases h with
    | call h =>
      rw [List.map_cons, List.sum_cons, Nat.add_comm]
      exact Nat.add_le_add_right (ih (h r hr) hrest) _

end Prog

section Bounds
variable {S A C R α : Type} {V : Service S A C R α} {s : S} {σ : Pool S A C R α}
  {evs : List (Move A C R α)} {bound : A → Nat} {cost : C → Nat} {post : R → Prop} {i : Nat} {a : A}

/-- What is spent in a move. -/
def Move.spent (cost : C → Nat) (m : Move A C R α) : Nat :=
  match m.act with
  | .calls c _ => cost c
  | _ => 0

/-- What a request may spend is granted when it arrives. -/
def Move.granted (bound : A → Nat) (m : Move A C R α) : Nat :=
  if m.isArrival then bound m.input else 0

/-- The answers that were given in the run. -/
def AnswersHave (post : R → Prop) (evs : List (Move A C R α)) : Prop :=
  ∀ m ∈ evs, ∀ c r, m.act = .calls c r → post r

theorem AnswersHave.callsOf (h : AnswersHave post evs) (i : Nat) : ∀ x ∈ callsOf i evs, post x.2 := by
  intro x hx
  obtain ⟨m, hm, -, hact⟩ := mem_callsOf hx
  exact h m hm x.1 x.2 hact

theorem sum_calls (f : Move A C R α → Nat) (i : Nat) (a : A) (l : List (C × R)) :
    ((served i a l : List (Move A C R α)).map f).sum =
      f ⟨i, a, .arrives⟩ + (l.map fun x => f ⟨i, a, .calls x.1 x.2⟩).sum := by
  simp [served, Function.comp_def]

theorem granted_served (i : Nat) (a : A) (l : List (C × R)) :
    ((served i a l : List (Move A C R α)).map (Move.granted bound)).sum = bound a := by
  simp [sum_calls, Move.granted, Move.isArrival]

theorem callsOf_running {l : List (C × R)} (hmoves : movesOf i evs = served i a l) :
    callsOf i evs = l := by
  rw [callsOf, hmoves, call?_served]

theorem callsOf_ended {x : α} {l : List (C × R)}
    (hmoves : movesOf i evs = served i a l ++ [⟨i, a, .ends x⟩]) : callsOf i evs = l := by
  have hend : [(⟨i, a, .ends x⟩ : Move A C R α)].filterMap Move.call? = [] := rfl
  rw [callsOf, hmoves, List.filterMap_append, call?_served, hend, List.append_nil]

/-- What the calls of a request cost is within the bound of its program. -/
theorem cost_callsOf_le {n : Nat} (hbound : (V.program a).Within cost post n)
    (h : Run (Step V) (.start s) evs σ) (hpost : AnswersHave post evs)
    (harrives : (⟨i, a, .arrives⟩ : Move A C R α) ∈ evs) :
    ((callsOf i evs).map fun x => cost x.1).sum ≤ n := by
  have hmem : (⟨i, a, .arrives⟩ : Move A C R α) ∈ movesOf i evs :=
    List.mem_filter.mpr ⟨harrives, by simp⟩
  cases traced h i with
  | fresh _ _ hmoves => simp [hmoves] at hmem
  | running b l p _ _ hfollows hmoves =>
    obtain rfl : a = b := by simpa [hmoves, served] using hmem
    obtain rfl := callsOf_running hmoves
    exact hbound.sum_le hfollows (hpost.callsOf i)
  | ended b l x _ _ hfollows hmoves =>
    obtain rfl : a = b := by simpa [hmoves, served] using hmem
    obtain rfl := callsOf_ended hmoves
    exact hbound.sum_le hfollows (hpost.callsOf i)

/-- A run costs no more than is granted to the requests that arrive in it. The arrival and
the end of a request may count for something as well. -/
theorem sum_le_granted {f : Move A C R α → Nat} {extra : Nat}
    (hbound : ∀ a, (V.program a).Within cost post (bound a))
    (h : Run (Step V) (.start s) evs σ) (hpost : AnswersHave post evs)
    (hcalls : ∀ i a c r, f ⟨i, a, .calls c r⟩ = cost c) (harrives : ∀ i a, f ⟨i, a, .arrives⟩ ≤ extra)
    (hends : ∀ i a x, f ⟨i, a, .arrives⟩ + f ⟨i, a, .ends x⟩ ≤ extra) :
    (evs.map f).sum ≤ (evs.map (Move.granted fun a => bound a + extra)).sum := by
  rw [sum_moves _ (ids_lt h), sum_moves _ (ids_lt h)]
  apply Finset.sum_le_sum
  intro i _
  cases traced h i with
  | fresh _ _ hmoves => simp [hmoves]
  | running a l p _ _ hfollows hmoves =>
    obtain rfl := callsOf_running hmoves
    have hl := (hbound a).sum_le hfollows (hpost.callsOf i)
    have ha := harrives i a
    rw [hmoves, granted_served, sum_calls]
    simp only [hcalls]
    omega
  | ended a l x _ _ hfollows hmoves =>
    obtain rfl := callsOf_ended hmoves
    have hl := (hbound a).sum_le hfollows (hpost.callsOf i)
    have ha := hends i a x
    rw [hmoves, List.map_append, List.map_append, List.sum_append, List.sum_append, granted_served,
      sum_calls]
    simp only [hcalls, List.map_cons, List.map_nil, List.sum_cons, List.sum_nil]
    omega

theorem spent_le (hbound : ∀ a, (V.program a).Within cost post (bound a))
    (h : Run (Step V) (.start s) evs σ) (hpost : AnswersHave post evs) :
    (evs.map (Move.spent cost)).sum ≤ (evs.map (Move.granted bound)).sum := by
  have hsum : (evs.map (Move.spent cost)).sum ≤ (evs.map (Move.granted fun a => bound a + 0)).sum :=
    sum_le_granted hbound h hpost (fun _ _ _ _ => rfl) (fun _ _ => Nat.le_refl 0)
      fun _ _ _ => Nat.le_refl 0
  exact hsum

theorem length_le (hbound : ∀ a, (V.program a).Within (fun _ => 1) post (bound a))
    (h : Run (Step V) (.start s) evs σ) (hpost : AnswersHave post evs) :
    evs.length ≤ (evs.map (Move.granted fun a => bound a + 2)).sum := by
  have hlength : evs.length = (evs.map fun _ => 1).sum := by simp
  rw [hlength]
  exact sum_le_granted hbound h hpost (fun _ _ _ _ => rfl) (fun _ _ => Nat.le_succ 1)
    fun _ _ _ => Nat.le_refl 2

end Bounds

end Threads

namespace Transactions

open Runs Threads

variable {A W E D α J : Type} {V : Site A W E D α J}

section Sizes
variable {size : D → Nat} {grow : W → Nat} {s s' : Store D J} {i n : Nat} {c : Command W}
  {r : Except E D} {db : D} {side : J} {σ : State A W E D α J} {evs : List (Event A W E D α)}

/-- By how much a call can make the tables grow. -/
def Command.growth (grow : W → Nat) : Command W → Nat
  | .write _ w => grow w
  | _ => 0

/-- The committed state and the open one are no larger than `n`. -/
def Bounded (size : D → Nat) (n : Nat) (s : Store D J) : Prop :=
  size s.db ≤ n ∧ ∀ i d, s.writer = some (i, d) → size d ≤ n

theorem Bounded.mono {m : Nat} (h : Bounded size n s) (hnm : n ≤ m) : Bounded size m s :=
  ⟨Nat.le_trans h.1 hnm, fun i d hw => Nat.le_trans (h.2 i d hw) hnm⟩

theorem Bounded.view (h : Bounded size n s) (i : Nat) : size (s.view i) ≤ n := by
  unfold Store.view
  split
  · exact h.1
  · rename_i j d hw
    split
    · exact h.2 j d hw
    · exact h.1

theorem Bounded.serves (hexec : ∀ d w d', V.exec d w = some d' → size d' ≤ size d + grow w)
    (h : Bounded size n s) (hserves : Serves V s i c r s') :
    Bounded size (n + c.growth grow) s' ∧ ∀ d, r = .ok d → size d ≤ n + c.growth grow := by
  have hview := h.view i
  cases hserves with
  | read => exact ⟨h, by rintro _ ⟨⟩; exact hview⟩
  | @write k w d hfree hd =>
    have hd' : size d ≤ n + grow w := Nat.le_trans (hexec _ _ _ hd) (Nat.add_le_add_right hview _)
    refine ⟨⟨Nat.le_trans h.1 (Nat.le_add_right _ _), ?_⟩, ?_⟩
    · rintro _ _ ⟨⟩
      exact hd'
    · rintro _ ⟨⟩
      exact hd'
  | violates hfree hd =>
    refine ⟨⟨Nat.le_trans h.1 (Nat.le_add_right _ _), ?_⟩, by simp⟩
    rintro _ _ ⟨⟩
    exact Nat.le_trans hview (Nat.le_add_right _ _)
  | commit =>
    refine ⟨⟨hview, ?_⟩, by rintro _ ⟨⟩; exact hview⟩
    exact fun j d hw => h.2 j d (Store.release_writer.mp hw).1
  | refused => exact ⟨h.mono (Nat.le_add_right _ _), by simp⟩

/-- The tables grow by what the calls of the run can add, and so does all that is shown. -/
theorem run_sizes (hexec : ∀ d w d', V.exec d w = some d' → size d' ≤ size d + grow w)
    (h : Run (Step V.service) (Site.start db side) evs σ) :
    Bounded size (size db + (evs.map (Move.spent (Command.growth grow))).sum) σ.store ∧
      AnswersHave (fun r => ∀ d, r = .ok d →
        size d ≤ size db + (evs.map (Move.spent (Command.growth grow))).sum) evs := by
  induction h with
  | nil => exact ⟨⟨Nat.le_refl _, by simp [Site.start, Pool.start]⟩, by simp [AnswersHave]⟩
  | @snoc es τ υ m hrun hstep ih =>
    obtain ⟨hbounded, hanswers⟩ := ih
    rw [List.map_append, List.sum_append, List.map_singleton, List.sum_singleton, ← Nat.add_assoc]
    generalize size db + (es.map (Move.spent (Command.growth grow))).sum = n at *
    suffices hnew : Bounded size (n + m.spent (Command.growth grow)) υ.store ∧
        ∀ c r, m.act = .calls c r → ∀ d, r = .ok d →
          size d ≤ n + m.spent (Command.growth grow) by
      refine ⟨hnew.1, ?_⟩
      intro x hx c r hact d hr
      rcases List.mem_append.mp hx with hx | hx
      · exact Nat.le_trans (hanswers x hx c r hact d hr) (Nat.le_add_right _ _)
      · obtain rfl := List.mem_singleton.mp hx
        exact hnew.2 c r hact d hr
    cases hstep with
    | arrives => exact ⟨hbounded, by simp⟩
    | calls hthread hserves =>
      refine ⟨(hbounded.serves hexec hserves).1, ?_⟩
      rintro _ _ ⟨⟩
      exact (hbounded.serves hexec hserves).2
    | ends =>
      refine ⟨⟨?_, fun j d hw => hbounded.2 j d (Store.of_finish_writer hw)⟩, by simp⟩
      exact Store.finish_db.symm ▸ hbounded.1

end Sizes

end Transactions
