import Mathlib.Data.List.Induction

/-!
# Runs of a labelled transition system

`Run step s es t` says that the events `es`, in this order, lead from `s` to `t`.
Everything here is about an arbitrary step relation. A property of the history is a
predicate on the events done so far together with the state they lead to.
-/

namespace Runs
set_option autoImplicit false

universe u v
variable {σ : Type u} {ε : Type v}

theorem split_snoc {es pre post : List ε} {e f : ε} (h : es ++ [e] = pre ++ f :: post) :
    (pre = es ∧ f = e ∧ post = []) ∨ ∃ post', post = post' ++ [e] ∧ es = pre ++ f :: post' := by
  rcases List.eq_nil_or_concat post with rfl | ⟨post', g, rfl⟩
  · obtain ⟨hes, hef⟩ := List.append_inj' h rfl
    exact .inl ⟨hes.symm, (List.singleton_inj.mp hef).symm, rfl⟩
  · have hsplit : es ++ [e] = (pre ++ f :: post') ++ [g] := by simpa using h
    obtain ⟨hes, hef⟩ := List.append_inj' hsplit rfl
    obtain rfl := List.singleton_inj.mp hef
    exact .inr ⟨post', by simp, hes⟩

section Throughout
variable {p : List ε → ε → Prop} {es fs : List ε} {e : ε}

/-- `p` holds of every event and the events before it. -/
def Throughout (p : List ε → ε → Prop) (es : List ε) : Prop :=
  ∀ pre e post, es = pre ++ e :: post → p pre e

/-- `Throughout` for the events `es` after `done`, by recursion on `es`. -/
def throughoutFrom (p : List ε → ε → Prop) : List ε → List ε → Prop
  | _, [] => True
  | done, e :: es => p done e ∧ throughoutFrom p (done ++ [e]) es

theorem throughoutFrom_iff {done : List ε} :
    throughoutFrom p done es ↔ ∀ pre e post, es = pre ++ e :: post → p (done ++ pre) e := by
  induction es generalizing done with
  | nil => simp [throughoutFrom]
  | cons e es ih =>
    simp only [throughoutFrom, ih]
    constructor
    · rintro ⟨he, hes⟩ pre f post h
      cases pre with
      | nil =>
        obtain ⟨rfl, _⟩ := List.cons.inj h
        simpa using he
      | cons g pre =>
        obtain ⟨rfl, rfl⟩ := List.cons.inj h
        simpa using hes pre f post rfl
    · intro h
      refine ⟨by simpa using h [] e es rfl, ?_⟩
      rintro pre f post rfl
      simpa using h (e :: pre) f post rfl

instance decidableThroughoutFrom [∀ done e, Decidable (p done e)] :
    ∀ done es, Decidable (throughoutFrom p done es)
  | _, [] => .isTrue trivial
  | done, e :: es =>
    have : Decidable (throughoutFrom p (done ++ [e]) es) := decidableThroughoutFrom _ es
    inferInstanceAs (Decidable (_ ∧ _))

instance [∀ done e, Decidable (p done e)] (es : List ε) : Decidable (Throughout p es) :=
  decidable_of_iff (throughoutFrom p [] es) (by simp [throughoutFrom_iff, Throughout])

end Throughout

/-- The last event of a run stands at the end of the list. -/
inductive Run (step : σ → ε → σ → Prop) (s : σ) : List ε → σ → Prop where
  | nil : Run step s [] s
  | snoc {es : List ε} {t u : σ} {e : ε} :
      Run step s es t → step t e u → Run step s (es ++ [e]) u

namespace Run
variable {step : σ → ε → σ → Prop} {s t u : σ} {es fs : List ε} {e : ε}

theorem mono {step' : σ → ε → σ → Prop} (hstep : ∀ t e u, step t e u → step' t e u)
    (h : Run step s es t) : Run step' s es t := by
  induction h with
  | nil => exact .nil
  | snoc _ h ih => exact .snoc ih (hstep _ _ _ h)

theorem single (h : step s e t) : Run step s [e] t := by
  have hrun : Run step s ([] ++ [e]) t := .snoc .nil h
  exact hrun

theorem trans (hes : Run step s es t) (hfs : Run step t fs u) : Run step s (es ++ fs) u := by
  induction hfs with
  | nil => simpa using hes
  | snoc _ hstep ih =>
    rw [← List.append_assoc]
    exact .snoc ih hstep

theorem cons (h : step s e t) (hes : Run step t es u) : Run step s (e :: es) u :=
  (single h).trans hes

theorem eq_of_nil (h : Run step s [] t) : t = s := by
  generalize hes : ([] : List ε) = es at h
  cases h with
  | nil => rfl
  | snoc _ _ => simp at hes

theorem last (h : Run step s (es ++ [e]) u) : ∃ t, Run step s es t ∧ step t e u := by
  generalize hfs : es ++ [e] = fs at h
  cases h with
  | nil => simp at hfs
  | snoc hrun hstep =>
    obtain ⟨rfl, rfl⟩ : _ = _ ∧ e = _ := by simpa using List.append_inj' hfs rfl
    exact ⟨_, hrun, hstep⟩

theorem split (h : Run step s (es ++ fs) u) : ∃ t, Run step s es t ∧ Run step t fs u := by
  induction fs using List.reverseRecOn generalizing u with
  | nil => exact ⟨u, by simpa using h, .nil⟩
  | append_singleton fs e ih =>
    rw [← List.append_assoc] at h
    obtain ⟨v, hv, hstep⟩ := h.last
    obtain ⟨t, hes, hfs⟩ := ih hv
    exact ⟨t, hes, .snoc hfs hstep⟩

/-- The state an event of the run was served in, and the state it left. -/
theorem at_event (h : Run step s (es ++ e :: fs) u) :
    ∃ t t', Run step s es t ∧ step t e t' ∧ Run step t' fs u := by
  obtain ⟨t, hes, hrest⟩ := h.split
  rw [← List.singleton_append] at hrest
  obtain ⟨t', hstep, hfs⟩ := hrest.split
  rw [← List.nil_append [e]] at hstep
  obtain ⟨v, hv, hstep'⟩ := hstep.last
  rw [hv.eq_of_nil] at hstep'
  exact ⟨t, t', hes, hstep', hfs⟩

theorem at_mem (h : Run step s es u) (he : e ∈ es) :
    ∃ pre post t t', es = pre ++ e :: post ∧ Run step s pre t ∧ step t e t' ∧
      Run step t' post u := by
  obtain ⟨pre, post, rfl⟩ := List.append_of_mem he
  obtain ⟨t, t', hpre, hstep, hpost⟩ := h.at_event
  exact ⟨pre, post, t, t', rfl, hpre, hstep, hpost⟩

/-- A history property that holds at the start and is kept by each event holds after
every run. The step may use that the state it starts in is reached. -/
theorem history (I : List ε → σ → Prop) (start : I [] s)
    (keep : ∀ es t e u, Run step s es t → I es t → step t e u → I (es ++ [e]) u)
    (h : Run step s es t) : I es t := by
  induction h with
  | nil => exact start
  | snoc hrun hstep ih => exact keep _ _ _ _ hrun ih hstep

/-- A state property kept by every event of this run, as opposed to every step of
the system. -/
theorem preserved (I : σ → Prop) (start : I s)
    (keep : ∀ t e u, e ∈ es → I t → step t e u → I u) (h : Run step s es t) : I t := by
  induction h with
  | nil => exact start
  | snoc _ hstep ih =>
    refine keep _ _ _ (by simp) (ih ?_) hstep
    exact fun t e u he => keep t e u (List.mem_append_left _ he)

end Run

section Fold
variable (f : σ → ε → σ) (I : σ → Prop) {C : σ → ε → Prop} {s : σ} {es : List ε}

/-- Runs of a step function: `I` holds all along exactly when every event meets the condition
under which it keeps `I`. -/
theorem foldl_always_iff (start : I s) (keep : ∀ s e, I s → (I (f s e) ↔ C s e)) :
    (∀ pre, pre <+: es → I (pre.foldl f s)) ↔
      ∀ pre e, pre ++ [e] <+: es → C (pre.foldl f s) e := by
  constructor
  · intro h pre e hpre
    have hbefore := h pre ((List.prefix_append pre [e]).trans hpre)
    have hafter := h (pre ++ [e]) hpre
    rw [List.foldl_append] at hafter
    exact (keep _ _ hbefore).mp hafter
  · intro h pre hpre
    induction pre using List.reverseRecOn with
    | nil => exact start
    | append_singleton pre e ih =>
      rw [List.foldl_append]
      exact (keep _ _ (ih ((List.prefix_append pre [e]).trans hpre))).mpr (h pre e hpre)

end Fold

section Order
variable {p q : ε → Prop} {es : List ε} {e : ε}

/-- Some event has `p`, and all later ones have `q`. -/
def Since (p q : ε → Prop) (es : List ε) : Prop :=
  ∃ pre e post, es = pre ++ e :: post ∧ p e ∧ ∀ x ∈ post, q x

theorem since_snoc : Since p q (es ++ [e]) ↔ p e ∨ (Since p q es ∧ q e) := by
  constructor
  · intro hsince
    obtain ⟨pre, f, post, h, hf, hpost⟩ := hsince
    rcases split_snoc h with ⟨rfl, rfl, -⟩ | ⟨post, rfl, rfl⟩
    · exact .inl hf
    · refine .inr ⟨⟨pre, f, post, rfl, hf, ?_⟩, hpost e (by simp)⟩
      exact fun x hx => hpost x (List.mem_append_left _ hx)
  · intro h
    rcases h with he | ⟨⟨pre, f, post, rfl, hf, hpost⟩, he⟩
    · exact ⟨es, e, [], rfl, he, by simp⟩
    · refine ⟨pre, f, post ++ [e], by simp, hf, ?_⟩
      intro x hx
      rcases List.mem_append.mp hx with hx | hx
      · exact hpost x hx
      · exact List.mem_singleton.mp hx ▸ he

theorem since_cons : Since p q (e :: es) ↔ (p e ∧ ∀ x ∈ es, q x) ∨ Since p q es := by
  constructor
  · intro hsince
    obtain ⟨pre, f, post, h, hf, hpost⟩ := hsince
    cases pre with
    | nil =>
      obtain ⟨rfl, rfl⟩ := List.cons.inj h
      exact .inl ⟨hf, hpost⟩
    | cons g pre =>
      obtain ⟨-, rfl⟩ := List.cons.inj h
      exact .inr ⟨pre, f, post, rfl, hf, hpost⟩
  · intro h
    rcases h with ⟨he, hes⟩ | ⟨pre, f, post, rfl, hf, hpost⟩
    · exact ⟨[], e, es, rfl, he, hes⟩
    · exact ⟨e :: pre, f, post, rfl, hf, hpost⟩

instance decidableSince [DecidablePred p] [DecidablePred q] : ∀ es, Decidable (Since p q es)
  | [] => .isFalse (by rintro ⟨pre, e, post, h, -⟩; simp at h)
  | e :: es =>
    have : Decidable (Since p q es) := decidableSince es
    decidable_of_iff ((p e ∧ ∀ x ∈ es, q x) ∨ Since p q es) since_cons.symm

theorem since_of_mem (he : e ∈ es) (hp : p e) : Since p (fun x => ¬ p x) es := by
  induction es using List.reverseRecOn with
  | nil => simp at he
  | append_singleton es f ih =>
    rw [since_snoc]
    by_cases hf : p f
    · exact .inl hf
    · refine .inr ⟨ih ?_, hf⟩
      rcases List.mem_append.mp he with he | he
      · exact he
      · exact absurd (List.mem_singleton.mp he ▸ hp) hf

/-- `r` holds of the last event with `p` and the events after it, if there is one. -/
def AfterLast (p : ε → Prop) (r : ε → List ε → Prop) (es : List ε) : Prop :=
  ∀ pre e post, es = pre ++ e :: post → p e → (∀ x ∈ post, ¬ p x) → r e post

theorem afterLast_cons {r : ε → List ε → Prop} :
    AfterLast p r (e :: es) ↔ (¬ (p e ∧ ∀ x ∈ es, ¬ p x) ∨ r e es) ∧ AfterLast p r es := by
  constructor
  · intro h
    refine ⟨or_iff_not_imp_left.mpr ?_, ?_⟩
    · intro hlast
      obtain ⟨he, hes⟩ := Classical.not_not.mp hlast
      exact h [] e es rfl he hes
    · rintro pre f post rfl
      exact h (e :: pre) f post rfl
  · rintro ⟨he, hes⟩ pre f post h hf hpost
    cases pre with
    | nil =>
      obtain ⟨rfl, rfl⟩ := List.cons.inj h
      exact he.resolve_left fun hlast => hlast ⟨hf, hpost⟩
    | cons g pre =>
      obtain ⟨-, rfl⟩ := List.cons.inj h
      exact hes pre f post rfl hf hpost

instance decidableAfterLast {r : ε → List ε → Prop} [DecidablePred p]
    [∀ e es, Decidable (r e es)] : ∀ es, Decidable (AfterLast p r es)
  | [] => .isTrue (by intro pre e post h; simp at h)
  | e :: es =>
    have : Decidable (AfterLast p r es) := decidableAfterLast es
    decidable_of_iff ((¬ (p e ∧ ∀ x ∈ es, ¬ p x) ∨ r e es) ∧ AfterLast p r es)
      afterLast_cons.symm

end Order

end Runs
