import Mathlib.Data.Nat.Notation
import Mathlib.Logic.Relation

/-!
# Loops that may fault

A loop is given by its body: one iteration either faults, goes on with a new state, or
leaves the loop with a result.  `run` executes a bounded number of iterations, so that it
computes; `run_of_reaches` frees the proofs from the bound, by following the iterations
as a relation, as soon as a measure decreases with each of them.
-/

namespace Lib.Loop

variable {σ α ε : Type*}

/-- One iteration of a loop over the states `σ` with the results `α`. -/
abbrev Body (σ α ε : Type*) := σ → Except ε (σ ⊕ α)

/-- At most `fuel` iterations; `none` when these do not leave the loop. -/
def run (body : Body σ α ε) : ℕ → σ → Except ε (Option α)
  | 0, _ => .ok none
  | fuel + 1, s =>
    match body s with
    | .error e => .error e
    | .ok (.inl s') => run body fuel s'
    | .ok (.inr a) => .ok (some a)

variable {body : Body σ α ε} {s s' : σ} {a : α}

/-- One iteration leads from one state to another. -/
def Goes (body : Body σ α ε) (s s' : σ) : Prop := body s = .ok (.inl s')

/-- Finitely many iterations lead from one state to another. -/
def Reaches (body : Body σ α ε) : σ → σ → Prop := Relation.ReflTransGen (Goes body)

lemma Reaches.refl (s : σ) : Reaches body s s := Relation.ReflTransGen.refl

lemma Reaches.trans {s'' : σ} (h : Reaches body s s') (h' : Reaches body s' s'') :
    Reaches body s s'' := Relation.ReflTransGen.trans h h'

lemma Reaches.single (h : body s = .ok (.inl s')) : Reaches body s s' :=
  Relation.ReflTransGen.single h

@[simp] lemma run_zero : run body 0 s = .ok none := rfl

lemma run_succ_of_goes (h : body s = .ok (.inl s')) (n : ℕ) :
    run body (n + 1) s = run body n s' := by
  rw [run, h]

lemma run_succ_of_leaves (h : body s = .ok (.inr a)) (n : ℕ) :
    run body (n + 1) s = .ok (some a) := by
  rw [run, h]

lemma run_succ_of_fails {e : ε} (h : body s = .error e) (n : ℕ) :
    run body (n + 1) s = .error e := by
  rw [run, h]

/-- More iterations do not change the result. -/
lemma run_of_le {n m : ℕ} (h : run body n s = .ok (some a)) (hnm : n ≤ m) :
    run body m s = .ok (some a) := by
  induction n generalizing s m with
  | zero => simp at h
  | succ n ih =>
    obtain ⟨m, rfl⟩ : ∃ k, m = k + 1 := ⟨m - 1, by omega⟩
    rcases hb : body s with e | (s' | b)
    · simp [run, hb] at h
    · rw [run_succ_of_goes hb] at h ⊢
      exact ih h (by omega)
    · rwa [run_succ_of_leaves hb] at h ⊢

/-- What a loop computes is the result of a state that it reaches. -/
lemma reaches_of_run {n : ℕ} (h : run body n s = .ok (some a)) :
    ∃ s', Reaches body s s' ∧ body s' = .ok (.inr a) := by
  induction n generalizing s with
  | zero => simp at h
  | succ n ih =>
    rcases hb : body s with e | (s' | b)
    · simp [run, hb] at h
    · rw [run_succ_of_goes hb] at h
      obtain ⟨t, hst, ht⟩ := ih h
      exact ⟨t, (Reaches.single hb).trans hst, ht⟩
    · rw [run_succ_of_leaves hb, Except.ok.injEq, Option.some.injEq] at h
      exact ⟨s, .refl s, h ▸ hb⟩

section Measure

variable {μ : σ → ℕ} (hμ : ∀ s s', body s = .ok (.inl s') → μ s' < μ s)

include hμ

/-- With fuel above the measure of the first state there is fuel left for each state that is
reached. -/
lemma run_eq_of_reaches (h : Reaches body s s') :
    ∀ n, μ s < n → ∃ m, run body n s = run body (m + 1) s' := by
  induction h using Relation.ReflTransGen.head_induction_on with
  | refl =>
    intro n hn
    exact ⟨n - 1, by rw [Nat.sub_add_cancel (by omega)]⟩
  | @head t u htu _ ih =>
    intro n hn
    obtain ⟨m, rfl⟩ : ∃ m, n = m + 1 := ⟨n - 1, by omega⟩
    have hlt := hμ t u htu
    rw [run_succ_of_goes htu]
    exact ih m (by omega)

/-- A loop whose iterations decrease a measure computes what its iterations reach, with
any fuel above the measure of the first state. -/
theorem run_of_reaches (h : Reaches body s s') (ha : body s' = .ok (.inr a)) :
    ∀ n, μ s < n → run body n s = .ok (some a) := by
  intro n hn
  obtain ⟨m, hm⟩ := run_eq_of_reaches hμ h n hn
  rw [hm, run_succ_of_leaves ha]

/-- It fails where its iterations lead it to. -/
theorem run_of_reaches_fault {e : ε} (h : Reaches body s s') (he : body s' = .error e) :
    ∀ n, μ s < n → run body n s = .error e := by
  intro n hn
  obtain ⟨m, hm⟩ := run_eq_of_reaches hμ h n hn
  rw [hm, run_succ_of_fails he]

/-- With fuel above the measure of the first state the loop faults or leaves with a
result: it never runs out of fuel. -/
theorem run_ne_none (n : ℕ) (hn : μ s < n) : run body n s ≠ .ok none := by
  induction n generalizing s with
  | zero => omega
  | succ n ih =>
    rw [run]
    rcases hb : body s with e | (s' | a)
    · simp
    · have hlt := hμ s s' hb
      exact ih (by omega)
    · simp

/-- If no state that is reached faults, the loop leaves with a result. -/
theorem exists_run (hok : ∀ s', Reaches body s s' → ∃ r, body s' = .ok r) (n : ℕ) (hn : μ s < n) :
    ∃ a, run body n s = .ok (some a) := by
  induction n generalizing s with
  | zero => omega
  | succ n ih =>
    obtain ⟨r, hr⟩ := hok s (.refl s)
    cases r with
    | inl s' =>
      have hlt := hμ s s' hr
      rw [run_succ_of_goes hr]
      exact ih (fun t ht => hok t ((Reaches.single hr).trans ht)) (by omega)
    | inr a => exact ⟨a, run_succ_of_leaves hr n⟩

end Measure

end Lib.Loop
