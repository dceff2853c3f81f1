import Gb28181.Lib.Trace
import Mathlib.Data.List.Forall2

/-!
# Simulations between event systems

A system is simulated by another one if each of its steps is matched by a run of the other
system, of any length: none at all if the step only concerns details that the other system does
not have.  What holds in all the states that the other system reaches then holds, seen through
the relation, in all the states that the first one reaches.

If both systems have lists of components, one for one, then the lists stay related when the
components that move do.
-/

namespace Lib.Simulation

open Lib.Trace

variable {σ τ ε δ : Type*} {step : σ → ε → Option σ} {step' : τ → δ → Option τ}
  {R : σ → τ → Prop}

variable (step step' R) in
/-- From related states, each step on the left is matched by a run on the right. -/
def Forward : Prop :=
  ∀ s t e s', R s t → step s e = some s' → ∃ fs t', run step' t fs = some t' ∧ R s' t'

variable {s s' : σ} {t : τ} {es : List ε}

/-- Then each run on the left is matched by one on the right. -/
theorem Forward.exists_run (h : Forward step step' R) (hR : R s t)
    (hrun : run step s es = some s') : ∃ fs t', run step' t fs = some t' ∧ R s' t' := by
  induction es generalizing s t with
  | nil =>
    obtain rfl := Option.some.inj hrun
    exact ⟨[], t, rfl, hR⟩
  | cons e es ih =>
    rw [run_cons, Option.bind_eq_some_iff] at hrun
    obtain ⟨u, hu, hrun⟩ := hrun
    obtain ⟨fs, v, hv, hR'⟩ := h s t e u hR hu
    obtain ⟨gs, t', ht', hR''⟩ := ih hR' hrun
    refine ⟨fs ++ gs, t', ?_, hR''⟩
    rw [run_append, hv, Option.bind_some, ht']

/-- A step that is matched by a single one. -/
lemma exists_run_of_step {f : δ} {t' : τ} (h : step' t f = some t') (hR : R s' t') :
    ∃ fs t', run step' t fs = some t' ∧ R s' t' :=
  ⟨[f], t', by rw [run_cons, h, Option.bind_some, run_nil], hR⟩

/-- A step that the other system does not notice. -/
lemma exists_run_of_stutter (hR : R s' t) : ∃ fs t', run step' t fs = some t' ∧ R s' t' :=
  ⟨[], t, rfl, hR⟩

/-! ### Lists of components -/

variable {α β : Type*} {S : α → β → Prop} {l : List α} {m : List β} {a : α} {b : β} {i : ℕ}

/-- One component moves on both sides. -/
lemma forall₂_set (h : List.Forall₂ S l m) (hS : S a b) :
    List.Forall₂ S (l.set i a) (m.set i b) := by
  induction h generalizing i with
  | nil => exact .nil
  | cons hab htail ih =>
    cases i with
    | zero => exact .cons hS htail
    | succ i => exact .cons hab ih

/-- A new component comes on both sides. -/
lemma forall₂_concat (h : List.Forall₂ S l m) (hS : S a b) :
    List.Forall₂ S (l ++ [a]) (m ++ [b]) := List.rel_append h (.cons hS .nil)

/-- The component that is related to a given one. -/
lemma exists_of_forall₂ (h : List.Forall₂ S l m) (hi : l[i]? = some a) :
    ∃ b, m[i]? = some b ∧ S a b := by
  induction h generalizing i with
  | nil => simp at hi
  | cons hab _ ih =>
    cases i with
    | zero => exact ⟨_, rfl, Option.some.inj hi ▸ hab⟩
    | succ i => exact ih hi

/-- As many components have a property on one side as on the other. -/
lemma countP_eq_of_forall₂ {p : α → Bool} {q : β → Bool} (h : List.Forall₂ S l m)
    (hpq : ∀ a b, S a b → p a = q b) : l.countP p = m.countP q := by
  induction h with
  | nil => rfl
  | cons hab _ ih => rw [List.countP_cons, List.countP_cons, ih, hpq _ _ hab]

end Lib.Simulation
