import Gb28181.Lib.CString

/-!
# Scanners

A scanner reads a value from the start of a text and leaves the rest, or it fails, and then, too,
there is a rest that it has not come to.  `Reads` says that it succeeds with a certain value and a
certain rest, and the rules follow the shape of a scanner: a sequence reads what its parts read one
after the other, and a loop reads what its iterations read.  A loop is executed with as many
iterations as there are characters, which is enough as soon as every iteration takes one
(`Loops.reads_loop`).
-/

namespace Lib.Scan

/-- Scanners with the errors `ε`. -/
abbrev Scanner (ε α : Type) := ExceptT ε (StateM Text) α

variable {ε α β σ : Type} {p : Scanner ε α} {f : α → Scanner ε β} {a c : α} {b : β} {s t u : Text}

/-- From `s` on the scanner reads `a` and leaves `t`. -/
def Reads (p : Scanner ε α) (s : Text) (a : α) (t : Text) : Prop := p.run.run s = (.ok a, t)

lemma Reads.pure (a : α) (s : Text) : Reads (ε := ε) (Pure.pure a) s a s := rfl

lemma reads_pure_iff : Reads (ε := ε) (Pure.pure a) s c t ↔ c = a ∧ t = s := by
  constructor
  · intro h
    have heq : ((.ok a, s) : Except ε α × Text) = (.ok c, t) := h
    rw [Prod.mk.injEq, Except.ok.injEq] at heq
    exact ⟨heq.1.symm, heq.2.symm⟩
  · rintro ⟨rfl, rfl⟩
    exact .pure c t

lemma run_bind (p : Scanner ε α) (f : α → Scanner ε β) (s : Text) : (p >>= f).run.run s =
    match p.run.run s with
    | (.ok a, t) => (f a).run.run t
    | (.error e, t) => (.error e, t) := by
  show (match p.run.run s with
    | (x, t) => StateT.run (ExceptT.bindCont f x) t) = _
  rcases p.run.run s with ⟨_ | _, _⟩ <;> rfl

lemma reads_bind_iff : Reads (p >>= f) s b u ↔ ∃ a t, Reads p s a t ∧ Reads (f a) t b u := by
  unfold Reads
  rw [run_bind]
  constructor
  · intro h
    rcases hp : p.run.run s with ⟨e | a, t⟩
    · rw [hp] at h
      cases h
    · rw [hp] at h
      exact ⟨a, t, rfl, h⟩
  · rintro ⟨a, t, hp, hf⟩
    rw [hp]
    exact hf

lemma Reads.bind (hp : Reads p s a t) (hf : Reads (f a) t b u) : Reads (p >>= f) s b u :=
  reads_bind_iff.2 ⟨a, t, hp, hf⟩

lemma not_reads_throw {e : ε} : ¬Reads (throw e : Scanner ε α) s a t := by
  intro h
  cases h

/-- The rest that lies ahead. -/
lemma Reads.get (s : Text) : Reads (ε := ε) MonadState.get s s s := rfl

/-- A scanner reads one value and leaves one rest. -/
lemma Reads.unique {a' : α} {t' : Text} (h : Reads p s a t) (h' : Reads p s a' t') :
    a = a' ∧ t = t' := by
  have heq : ((.ok a, t) : Except ε α × Text) = (.ok a', t') := Eq.trans (Eq.symm h) h'
  rwa [Prod.mk.injEq, Except.ok.injEq] at heq

/-- From `s` on the scanner comes as far as `t` and fails with `e`. -/
def Fails (p : Scanner ε α) (s : Text) (e : ε) (t : Text) : Prop := p.run.run s = (.error e, t)

lemma Reads.map (g : α → β) (hp : Reads p s a t) : Reads (g <$> p) s (g a) t := by
  rw [map_eq_pure_bind]
  exact hp.bind (.pure _ _)

/-- The scanner takes at least one character. -/
def Consumes (p : Scanner ε α) : Prop := ∀ s a t, Reads p s a t → t.length < s.length

/-- The scanner does not add to the text. -/
def Shortens (p : Scanner ε α) : Prop := ∀ s a t, Reads p s a t → t.length ≤ s.length

lemma Consumes.bind (hp : Consumes p) (hf : ∀ a, Shortens (f a)) : Consumes (p >>= f) := by
  intro s b u h
  obtain ⟨a, t, hpt, hft⟩ := reads_bind_iff.1 h
  exact Nat.lt_of_le_of_lt (hf a t b u hft) (hp s a t hpt)

lemma Shortens.bind (hp : Shortens p) (hf : ∀ a, Shortens (f a)) : Shortens (p >>= f) := by
  intro s b u h
  obtain ⟨a, t, hpt, hft⟩ := reads_bind_iff.1 h
  exact Nat.le_trans (hf a t b u hft) (hp s a t hpt)

lemma Shortens.pure (a : α) : Shortens (ε := ε) (Pure.pure a) := by
  intro s c t h
  exact (reads_pure_iff.1 h).2 ▸ Nat.le_refl _

lemma Shortens.throw (e : ε) : Shortens (throw e : Scanner ε α) := fun _ _ _ h =>
  absurd h not_reads_throw

/-- Whether it succeeds or fails, the scanner does not add to the text. -/
def Advances (p : Scanner ε α) : Prop := ∀ s, (p.run.run s).2.length ≤ s.length

lemma Advances.pure (a : α) : Advances (ε := ε) (Pure.pure a) := fun _ => Nat.le_refl _

lemma Advances.throw (e : ε) : Advances (throw e : Scanner ε α) := fun _ => Nat.le_refl _

lemma Advances.get : Advances (ε := ε) MonadState.get := fun _ => Nat.le_refl _

lemma Advances.bind (hp : Advances p) (hf : ∀ a, Advances (f a)) : Advances (p >>= f) := by
  intro s
  have hps := hp s
  rw [run_bind]
  rcases hrun : p.run.run s with ⟨e | a, t⟩
  · rw [hrun] at hps
    exact hps
  · rw [hrun] at hps
    exact Nat.le_trans (hf a t) hps

lemma Advances.map (g : α → β) (hp : Advances p) : Advances (g <$> p) := by
  rw [map_eq_pure_bind]
  exact hp.bind fun a => .pure (g a)

lemma Advances.ite {c : Prop} [Decidable c] {q : Scanner ε α} (hp : Advances p) (hq : Advances q) :
    Advances (if c then p else q) := by
  split
  · exact hp
  · exact hq

/-! ### Loops -/

variable {cond : Text → Bool} {body : σ → Scanner ε σ} {x y z : σ} {n : ℕ}

/-- `while (cond) body`, with at most `n` iterations. -/
def whileLoop (cond : Text → Bool) (body : σ → Scanner ε σ) : ℕ → σ → Scanner ε σ
  | 0, x => pure x
  | n + 1, x => do
    if cond (← get) then
      let y ← body x
      whileLoop cond body n y
    else return x

/-- `while (cond) body`. -/
def loop (cond : Text → Bool) (body : σ → Scanner ε σ) (x : σ) : Scanner ε σ := do
  let s ← get
  whileLoop cond body s.length x

lemma Advances.loop (h : ∀ x, Advances (body x)) (x : σ) : Advances (loop cond body x) := by
  refine Advances.get.bind fun s => ?_
  generalize s.length = n
  induction n generalizing x with
  | zero => exact .pure x
  | succ n ih =>
    refine Advances.get.bind fun t => .ite ((h x).bind fun y => ih y) (.pure x)

/-- What the iterations read one after the other. -/
inductive Loops (cond : Text → Bool) (body : σ → Scanner ε σ) : σ → Text → σ → Text → Prop
  | done {x : σ} {s : Text} (hcond : cond s = false) : Loops cond body x s x s
  | step {x y z : σ} {s t u : Text} (hcond : cond s = true) (hbody : Reads (body x) s y t)
      (hlt : t.length < s.length) (htail : Loops cond body y t z u) : Loops cond body x s z u

lemma whileLoop_succ_of_pos (hcond : cond s = true) (hbody : Reads (body x) s y t)
    (htail : Reads (whileLoop cond body n y) t z u) :
    Reads (whileLoop cond body (n + 1) x) s z u := by
  unfold whileLoop
  refine (Reads.get s).bind ?_
  rw [if_pos hcond]
  exact hbody.bind htail

lemma whileLoop_of_neg (hcond : cond s = false) : Reads (whileLoop cond body n x) s x s := by
  cases n with
  | zero => exact .pure x s
  | succ n =>
    unfold whileLoop
    refine (Reads.get s).bind ?_
    rw [if_neg (by simp [hcond])]
    exact .pure x s

lemma Loops.whileLoop (h : Loops cond body x s y t) :
    ∀ n, s.length ≤ n → Reads (whileLoop cond body n x) s y t := by
  induction h with
  | done hcond => exact fun n _ => whileLoop_of_neg hcond
  | step hcond hbody hlt _ ih =>
    intro n hn
    obtain ⟨m, rfl⟩ : ∃ m, n = m + 1 := ⟨n - 1, by omega⟩
    exact whileLoop_succ_of_pos hcond hbody (ih m (by omega))

lemma Loops.reads_loop (h : Loops cond body x s y t) : Reads (loop cond body x) s y t :=
  (Reads.get s).bind (h.whileLoop _ (Nat.le_refl _))

lemma Loops.length_le (h : Loops cond body x s y t) : t.length ≤ s.length := by
  induction h with
  | done => exact Nat.le_refl _
  | step _ _ hlt _ ih => exact Nat.le_trans ih (Nat.le_of_lt hlt)

/-- What every iteration keeps. -/
lemma Loops.invariant {P : σ → Prop} (h : Loops cond body x s y t)
    (hbody : ∀ x s y t, P x → Reads (body x) s y t → P y) (hx : P x) : P y := by
  induction h with
  | done => exact hx
  | step _ hy _ _ ih => exact ih (hbody _ _ _ _ hx hy)

end Lib.Scan
