import Mathlib.Data.Int.Notation

/-!
# Calls that report a status

A block `do { ... } while (0)` of calls on a state: each call yields a status, zero for success, and
the first call that fails ends the block with its status.
-/

namespace Lib

/-- A call: its status and the state after it. -/
abbrev Stage (σ : Type*) := σ → ℤ × σ

namespace Stage

variable {σ : Type*} {f g h : Stage σ} {s : σ}

/-- A call that has the effect `up` when it succeeds and none when it fails. -/
def call (status : ℤ) (up : σ → σ) : Stage σ := fun s =>
  (status, if status = 0 then up s else s)

/-- `f`, and then `g` unless `f` fails. -/
def andThen (f g : Stage σ) : Stage σ := fun s =>
  if (f s).1 ≠ 0 then f s else g (f s).2

lemma andThen_of_success (hf : (f s).1 = 0) : f.andThen g s = g (f s).2 := by
  rw [andThen, if_neg (not_not_intro hf)]

lemma andThen_of_failure (hf : (f s).1 ≠ 0) : f.andThen g s = f s := by
  rw [andThen, if_pos hf]

/-- A block inside a block. -/
lemma andThen_assoc (f g h : Stage σ) : (f.andThen g).andThen h = f.andThen (g.andThen h) := by
  ext s : 1
  by_cases hf : (f s).1 = 0
  · rw [andThen_of_success hf]
    by_cases hg : (g (f s).2).1 = 0
    · rw [andThen_of_success hg, andThen_of_success, andThen_of_success hf]
      rwa [andThen_of_success hf]
    · rw [andThen_of_failure hg, andThen_of_failure, andThen_of_success hf]
      rwa [andThen_of_success hf]
  · have hfg : (f.andThen g s).1 ≠ 0 := by rwa [andThen_of_failure hf]
    rw [andThen_of_failure hfg, andThen_of_failure hf, andThen_of_failure hf]

lemma call_success (up : σ → σ) (s : σ) : call 0 up s = (0, up s) := by
  rw [call, if_pos rfl]

lemma call_failure {status : ℤ} (hs : status ≠ 0) (up : σ → σ) (s : σ) :
    call status up s = (status, s) := by
  rw [call, if_neg hs]

/-- A property of the state that both parts of a block keep. -/
lemma andThen_keeps {P : σ → Prop} (hf : ∀ s, P s → P (f s).2) (hg : ∀ s, P s → P (g s).2) (s : σ)
    (hs : P s) : P (f.andThen g s).2 := by
  by_cases h : (f s).1 = 0
  · rw [andThen_of_success h]
    exact hg _ (hf s hs)
  · rw [andThen_of_failure h]
    exact hf s hs

lemma call_keeps {P : σ → Prop} {status : ℤ} {up : σ → σ} (hup : ∀ s, P s → P (up s)) (s : σ)
    (hs : P s) : P (call status up s).2 := by
  rw [call]
  split
  · exact hup s hs
  · exact hs

/-- What a block cannot end with when its first call fails shows that this call succeeded. -/
theorem call_andThen_iff {Q : ℤ × σ → Prop} {status : ℤ} {up : σ → σ}
    (hQ : status ≠ 0 → ¬ Q (status, s)) :
    Q ((call status up).andThen g s) ↔ status = 0 ∧ Q (g (up s)) := by
  by_cases hs : status = 0
  · subst hs
    rw [andThen_of_success (congrArg Prod.fst (call_success up s)), call_success]
    exact ⟨fun h => ⟨rfl, h⟩, fun h => h.2⟩
  · have hfail := call_failure hs up s
    rw [andThen_of_failure (by rwa [hfail]), hfail]
    exact ⟨fun h => absurd h (hQ hs), fun h => absurd h.1 hs⟩

end Stage

end Lib
