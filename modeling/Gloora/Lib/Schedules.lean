import Gloora.Lib.Transactions

/-!
# Choosing the next step

A schedule says which request arrives, is answered or is refused next. `schedule` computes the
run it leads to, and is used to reach concrete states of a pool.
-/

namespace Transactions
set_option autoImplicit false

open Runs Threads

inductive Choice (A : Type) where
  | arrives (a : A)
  /-- The request's next call is answered, or it ends. -/
  | serves (i : Nat)
  | refuses (i : Nat)

variable {A W E D α J : Type} (V : Site A W E D α J)

/-- The answer to a call that is not refused without need. -/
def Site.answer (s : Store D J) (i : Nat) : Command W → Except E D × Store D J
  | .read => (.ok (s.view i), s)
  | .write _ w =>
    if (s.writer.all fun x => x.1 == i) then
      match V.exec (s.view i) w with
      | some d => (.ok d, { s with writer := some (i, d) })
      | none => (.error V.conflict, { s with writer := some (i, s.view i) })
    else (.error V.busy, s)
  | .commit _ => (.ok (s.view i), { s.release i with db := s.view i })

def Site.advance [∀ j a, Decidable (V.admits j a)] (σ : State A W E D α J) :
    Choice A → Option (Event A W E D α × State A W E D α J)
  | .arrives a =>
    if V.admits σ.store.side a then
      some (⟨σ.next, a, .arrives⟩,
        ⟨σ.store, σ.next + 1, Function.update σ.threads σ.next (some ⟨a, V.program a⟩)⟩)
    else none
  | .serves i =>
    match σ.threads i with
    | none => none
    | some ⟨a, .done x⟩ =>
      some (⟨i, a, .ends x⟩,
        ⟨V.service.ends σ.store i a x, σ.next, Function.update σ.threads i none⟩)
    | some ⟨a, .call c next⟩ =>
      let answer := V.answer σ.store i c
      some (⟨i, a, .calls c answer.1⟩,
        ⟨answer.2, σ.next, Function.update σ.threads i (some ⟨a, next answer.1⟩)⟩)
  | .refuses i =>
    match σ.threads i with
    | some ⟨a, .call c next⟩ =>
      some (⟨i, a, .calls c (.error V.busy)⟩,
        ⟨σ.store, σ.next, Function.update σ.threads i (some ⟨a, next (.error V.busy)⟩)⟩)
    | _ => none

def Site.schedule [∀ j a, Decidable (V.admits j a)] :
    State A W E D α J → List (Choice A) → Option (List (Event A W E D α) × State A W E D α J)
  | σ, [] => some ([], σ)
  | σ, c :: cs =>
    (V.advance σ c).bind fun x => (schedule x.2 cs).map fun y => (x.1 :: y.1, y.2)

variable {V} {σ τ : State A W E D α J} {s : Store D J} {i : Nat} {c : Command W}

theorem answer_serves : Serves V s i c (V.answer s i c).1 (V.answer s i c).2 := by
  cases c with
  | read => exact .read
  | commit k => exact .commit
  | write k w =>
    by_cases hall : (s.writer.all fun x => x.1 == i) = true
    · have hfree : s.Free i := by
        intro j d hw
        simpa [hw] using hall
      cases hexec : V.exec (s.view i) w with
      | some d =>
        simp only [Site.answer, hall, if_true, hexec]
        exact .write hfree hexec
      | none =>
        simp only [Site.answer, hall, if_true, hexec]
        exact .violates hfree hexec
    · simp only [Site.answer, hall, if_false, Bool.false_eq_true]
      exact .refused

variable [∀ j a, Decidable (V.admits j a)] {m : Event A W E D α} {x : Choice A}

theorem advance_step (h : V.advance σ x = some (m, τ)) : Step V.service σ m τ := by
  cases x with
  | arrives a =>
    simp only [Site.advance] at h
    split at h
    · rename_i hadmits
      cases h
      exact .arrives hadmits
    · cases h
  | serves i =>
    simp only [Site.advance] at h
    split at h
    · cases h
    · rename_i a x hthread
      cases h
      exact .ends hthread
    · rename_i a c next hthread
      cases h
      exact .calls hthread answer_serves
  | refuses i =>
    simp only [Site.advance] at h
    split at h
    · rename_i a c next hthread
      cases h
      exact .calls hthread .refused
    · cases h

theorem schedule_run {cs : List (Choice A)} {evs : List (Event A W E D α)}
    (h : V.schedule σ cs = some (evs, τ)) : Run (Step V.service) σ evs τ := by
  induction cs generalizing σ evs with
  | nil =>
    obtain ⟨rfl, rfl⟩ := Prod.mk.inj (Option.some.inj h)
    exact .nil
  | cons c cs ih =>
    obtain ⟨⟨m, υ⟩, hadvance, hrest⟩ := Option.bind_eq_some_iff.mp h
    obtain ⟨⟨es, τ'⟩, hschedule, heq⟩ := Option.map_eq_some_iff.mp hrest
    obtain ⟨rfl, rfl⟩ := Prod.mk.inj heq
    exact .cons (advance_step hadvance) (ih hschedule)

end Transactions
