import Mathlib.Data.List.Infix
import Mathlib.Data.List.Induction

/-!
# Runs of an event system

A system over the states `σ` and the events `ε` is given by a partial step function: `none`
says that the event cannot happen in that state.  All the choices a run makes (which thread
moves, what a library call returns) are written in its events, so that a run is a list of
events and a statement about every interleaving is one about every list.

The rules at the end are the ways in which such statements are settled here: an invariant
of the steps is an invariant of the runs, and a property that each step keeps exactly when
it meets a condition holds all along a run exactly when all its steps meet the condition.  The
same for a property that has to last, whatever follows, when one event alone can end that.
-/

namespace Lib.Trace

variable {σ ε : Type*} (step : σ → ε → Option σ)

/-- The state after a list of events, if all of them can happen. -/
def run : σ → List ε → Option σ
  | s, [] => some s
  | s, e :: es => (step s e).bind fun s' => run s' es

@[simp] lemma run_nil (s : σ) : run step s [] = some s := rfl

@[simp] lemma run_cons (s : σ) (e : ε) (es : List ε) :
    run step s (e :: es) = (step s e).bind fun s' => run step s' es := rfl

lemma run_append (s : σ) (es fs : List ε) :
    run step s (es ++ fs) = (run step s es).bind fun s' => run step s' fs := by
  induction es generalizing s with
  | nil => simp
  | cons e es ih =>
    simp only [List.cons_append, run_cons, Option.bind_assoc]
    exact congrArg _ (funext ih)

variable {step} {s t : σ} {es : List ε}

lemma run_concat {e : ε} :
    run step s (es ++ [e]) = some t ↔ ∃ u, run step s es = some u ∧ step u e = some t := by
  rw [run_append, Option.bind_eq_some_iff]
  simp

/-- What holds at the start and is kept by every step holds after every run. -/
theorem invariant {Inv : σ → Prop} (h₀ : Inv s)
    (hstep : ∀ s e s', Inv s → step s e = some s' → Inv s')
    (h : run step s es = some t) : Inv t := by
  induction es generalizing s with
  | nil => exact Option.some.inj h ▸ h₀
  | cons e es ih =>
    rw [run_cons, Option.bind_eq_some_iff] at h
    obtain ⟨s', hs', h⟩ := h
    exact ih (hstep s e s' h₀ hs') h

/-! ### Properties of all the states of a run -/

variable (step) in
/-- `P` holds in every state the run passes through, the first and the last included. -/
def Always (P : σ → Prop) (s : σ) (es : List ε) : Prop :=
  ∀ pre, pre <+: es → ∀ u, run step s pre = some u → P u

variable (step) in
/-- Every step of the run is taken in a state that stands in `C` to its event. -/
def EachStep (C : σ → ε → Prop) (s : σ) (es : List ε) : Prop :=
  ∀ pre e, pre ++ [e] <+: es → ∀ u u', run step s pre = some u → step u e = some u' → C u e

variable {P J : σ → Prop} {C : σ → ε → Prop}

/-- If the steps that meet `C` keep `P`, then `P` holds all along a run all of whose steps meet
`C`. -/
theorem always_of_eachStep (hP₀ : P s)
    (hP : ∀ s e s', P s → C s e → step s e = some s' → P s') (h : EachStep step C s es) :
    Always step P s es := by
  intro pre
  induction pre using List.reverseRecOn with
  | nil => intro _ u hu; exact Option.some.inj hu ▸ hP₀
  | append_singleton pre e ih =>
    intro hpre u hu
    obtain ⟨v, hv, he⟩ := run_concat.1 hu
    exact hP v e u (ih ((List.prefix_append _ _).trans hpre) v hv) (h pre e hpre v u hv he) he

/-- If, under an invariant `J`, a step from a state with `P` leads to a state with `P`
exactly when it meets `C`, then `P` holds all along a run exactly when all the steps of
the run meet `C`. -/
theorem always_iff_eachStep (hJ₀ : J s) (hP₀ : P s)
    (hJ : ∀ s e s', J s → step s e = some s' → J s')
    (hP : ∀ s e s', J s → P s → step s e = some s' → (P s' ↔ C s e)) (es : List ε) :
    Always step P s es ↔ EachStep step C s es := by
  constructor
  · intro hall pre e hpre u u' hu he
    have hPu : P u := hall pre ((List.prefix_append _ _).trans hpre) u hu
    have hPu' : P u' := hall (pre ++ [e]) hpre u' (run_concat.2 ⟨u, hu, he⟩)
    exact (hP u e u' (invariant hJ₀ hJ hu) hPu he).1 hPu'
  · intro hsteps pre hpre u hu
    have hboth : Always step (fun s => J s ∧ P s) s es :=
      always_of_eachStep ⟨hJ₀, hP₀⟩ (fun s e s' hs hC he =>
        ⟨hJ s e s' hs.1 he, (hP s e s' hs.1 hs.2 he).2 hC⟩) hsteps
    exact (hboth pre hpre u hu).2

/-! ### Properties that last -/

variable (step) in
/-- `P` holds in this state and in whatever can follow without the event `last`. -/
def Stays (last : ε) (P : σ → Prop) (s : σ) : Prop :=
  ∀ fs, last ∉ fs → Always step P s fs

variable {last : ε} {e : ε} {s' : σ}

lemma Stays.holds (h : Stays step last P s) : P s := h [] List.not_mem_nil [] List.prefix_rfl s rfl

/-- What lasts after a state lasts after the next one. -/
lemma stays_step (hs : Stays step last P s) (he : e ≠ last) (h : step s e = some s') :
    Stays step last P s' := by
  intro fs hfs pre hpre u hu
  refine hs (e :: fs) ?_ (e :: pre) ((List.cons_prefix_cons).2 ⟨rfl, hpre⟩) u ?_
  · intro hmem
    rcases List.mem_cons.1 hmem with heq | hmem
    · exact he heq.symm
    · exact hfs hmem
  · rw [run_cons, h, Option.bind_some, hu]

/-- An invariant of all the steps but `last` makes what it implies last. -/
lemma stays_of_invariant {I : σ → Prop} (hs : I s)
    (hI : ∀ s e s', I s → e ≠ last → step s e = some s' → I s') (hP : ∀ s, I s → P s) :
    Stays step last P s := by
  intro fs hfs pre hpre u hu
  have hall : Always step I s fs := by
    refine always_of_eachStep (C := fun _ e => e ≠ last) hs hI ?_
    intro pre e hpre _ _ _ _ he
    exact hfs (he ▸ hpre.subset (List.mem_append_right _ (List.mem_singleton.2 rfl)))
  exact hP u (hall pre hpre u hu)

/-- If `P` lasts at first, then it lasts in every state of a run exactly when the event `last` is
taken only in states from which it leads to one where `P` lasts. -/
theorem always_stays_iff {C : σ → Prop} (hJ₀ : J s) (hP₀ : Stays step last P s)
    (hJ : ∀ s e s', J s → step s e = some s' → J s')
    (hC : ∀ s s', J s → step s last = some s' → (Stays step last P s' ↔ C s)) (es : List ε) :
    Always step (Stays step last P) s es ↔ EachStep step (fun s e => e = last → C s) s es := by
  refine always_iff_eachStep hJ₀ hP₀ hJ ?_ es
  intro s e s' hs hstays h
  by_cases he : e = last
  · subst he
    rw [hC s s' hs h]
    exact ⟨fun hC _ => hC, fun hC => hC rfl⟩
  · exact iff_of_true (stays_step hstays he h) fun he' => absurd he' he

/-! ### Logs -/

variable {ω : Type*} {obs : σ → ε → List ω} {x x' : σ × List ω}

variable (step obs) in
/-- The system together with a log of what its steps put out. -/
def logged (x : σ × List ω) (e : ε) : Option (σ × List ω) :=
  (step x.1 e).map fun s' => (s', x.2 ++ obs x.1 e)

lemma logged_eq_some : logged step obs x e = some x' ↔
    step x.1 e = some x'.1 ∧ x'.2 = x.2 ++ obs x.1 e := by
  rw [logged, Option.map_eq_some_iff]
  constructor
  · rintro ⟨s', hs', rfl⟩
    exact ⟨hs', rfl⟩
  · rintro ⟨hs', hlog⟩
    exact ⟨x'.1, hs', Prod.ext rfl hlog.symm⟩

lemma logged_eq_none : logged step obs x e = none ↔ step x.1 e = none := Option.map_eq_none_iff

end Lib.Trace
