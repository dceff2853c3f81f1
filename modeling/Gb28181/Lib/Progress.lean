import Gb28181.Lib.Trace
import Mathlib.Tactic.Push

/-!
# Systems that come to rest

Some events of a system do its work, others bring new work in.  If every event of the first kind
takes something from the work that is left, as a natural number measures it, then a run of such
events is bounded, whatever their order, and can be continued until none of them can happen any
more.  So whatever holds of the states of that kind is where the system ends up when nothing new
comes in.
-/

namespace Lib.Progress

open Lib.Trace

variable {σ ε : Type*} {step : σ → ε → Option σ} {Work : ε → Prop} {Inv : σ → Prop} {left : σ → ℕ}

variable (step Work) in
/-- No work can be done. -/
def AtRest (s : σ) : Prop := ∀ e, Work e → step s e = none

variable (step Work Inv left) in
/-- Work keeps the invariant and takes from what is left. -/
def Shrinks : Prop :=
  ∀ s e s', Inv s → Work e → step s e = some s' → Inv s' ∧ left s' < left s

variable {s t : σ} {es : List ε}

/-- A run that does nothing but work is at most as long as what it takes from the work left. -/
theorem Shrinks.length_add_le (h : Shrinks step Work Inv left) (hs : Inv s)
    (hes : ∀ e ∈ es, Work e) (hrun : run step s es = some t) :
    Inv t ∧ es.length + left t ≤ left s := by
  induction es generalizing s with
  | nil =>
    obtain rfl := Option.some.inj hrun
    exact ⟨hs, by simp⟩
  | cons e es ih =>
    rw [run_cons, Option.bind_eq_some_iff] at hrun
    obtain ⟨u, hu, hrun⟩ := hrun
    obtain ⟨hinv, hlt⟩ := h s e u hs (hes e (by simp)) hu
    obtain ⟨ht, hle⟩ := ih hinv (fun e he => hes e (by simp [he])) hrun
    refine ⟨ht, ?_⟩
    rw [List.length_cons]
    omega

/-- Some run that does nothing but work leads to rest. -/
theorem Shrinks.exists_atRest (h : Shrinks step Work Inv left) (hs : Inv s) :
    ∃ es t, (∀ e ∈ es, Work e) ∧ run step s es = some t ∧ AtRest step Work t := by
  induction hn : left s using Nat.strong_induction_on generalizing s with
  | h n ih =>
    by_cases hrest : AtRest step Work s
    · exact ⟨[], s, by simp, rfl, hrest⟩
    · rw [AtRest] at hrest
      push Not at hrest
      obtain ⟨e, he, hstep⟩ := hrest
      obtain ⟨u, hu⟩ := Option.ne_none_iff_exists'.1 hstep
      obtain ⟨hinv, hlt⟩ := h s e u hs he hu
      obtain ⟨es, t, hes, hrun, ht⟩ := ih (left u) (hn ▸ hlt) hinv rfl
      refine ⟨e :: es, t, ?_, by rw [run_cons, hu, Option.bind_some, hrun], ht⟩
      rintro f hf
      rcases List.mem_cons.1 hf with rfl | hf
      · exact he
      · exact hes f hf

variable (step Work) in
/-- The system comes to rest from here: no run that does nothing but work is longer than `n`, some
such run leads to rest, and all that do end in `P`. -/
structure ComesToRest (n : ℕ) (P : σ → Prop) (s : σ) : Prop where
  bounded : ∀ es t, (∀ e ∈ es, Work e) → run step s es = some t → es.length ≤ n
  reaches : ∃ es t, (∀ e ∈ es, Work e) ∧ run step s es = some t ∧ AtRest step Work t
  ends : ∀ es t, (∀ e ∈ es, Work e) → run step s es = some t → AtRest step Work t → P t

theorem Shrinks.comesToRest {P : σ → Prop} (h : Shrinks step Work Inv left) (hs : Inv s)
    (hP : ∀ t, Inv t → AtRest step Work t → P t) : ComesToRest step Work (left s) P s where
  bounded := fun _ _ hes hrun => Nat.le_of_add_right_le (h.length_add_le hs hes hrun).2
  reaches := h.exists_atRest hs
  ends := fun _ t hes hrun ht => hP t (h.length_add_le hs hes hrun).1 ht

end Lib.Progress
