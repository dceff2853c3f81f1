import Mathlib.Data.List.Infix
import Gb28181.Lib.CString
import Gb28181.Lib.Loop

/-!
# The same computation in more memory

A computation that does not leave its memory yields the same when more memory follows.  The rules
go along the structure of a computation: `Extends.bind` for a sequence, `Loop.run_extends` for a
loop, and one for each access.
-/

namespace Lib

universe u

variable {α β : Type u}

/-- Whatever `x` yields, `y` yields as well. -/
def Extends (x y : Except Fault α) : Prop := ∀ a, x = .ok a → y = .ok a

lemma Extends.refl (x : Except Fault α) : Extends x x := fun _ h => h

lemma Extends.bind {x y : Except Fault α} {f g : α → Except Fault β} (hxy : Extends x y)
    (hfg : ∀ a, Extends (f a) (g a)) : Extends (x >>= f) (y >>= g) := by
  intro b hb
  obtain ⟨a, ha, hfa⟩ := bind_eq_ok.1 hb
  exact bind_eq_ok.2 ⟨a, hxy a ha, hfg a b hfa⟩

lemma Extends.ite {x y x' y' : Except Fault α} {p : Prop} [Decidable p] (hx : Extends x x')
    (hy : Extends y y') : Extends (if p then x else y) (if p then x' else y') := by
  split
  · exact hx
  · exact hy

variable {s s' t t' buf buf' : Text} {i n : ℕ} {p : Char → Bool}

lemma read_extends (h : buf <+: buf') : Extends (read buf i) (read buf' i) := by
  intro c hc
  rw [read_eq_ok] at hc ⊢
  obtain ⟨t, rfl⟩ := h
  rwa [List.getElem?_append_left (List.getElem?_eq_some_iff.1 hc).1]

lemma scanFrom_extends (h : s <+: s') : Extends (scanFrom p s i) (scanFrom p s' i) := by
  induction s generalizing s' i with
  | nil => intro c hc; simp [scanFrom] at hc
  | cons c s ih =>
    obtain ⟨t, rfl⟩ := h
    rw [List.cons_append, scanFrom, scanFrom]
    exact (ih (List.prefix_append s t)).ite (.refl _)

lemma skipWhile_extends (h : buf <+: buf') : Extends (skipWhile p buf i) (skipWhile p buf' i) :=
  scanFrom_extends (List.IsPrefix.drop h i)

lemma strncasecmp_extends (hs : s <+: s') (ht : t <+: t') :
    Extends (strncasecmp s t n) (strncasecmp s' t' n) := by
  induction n generalizing s s' t t' with
  | zero =>
    rw [strncasecmp_zero, strncasecmp_zero]
    exact .refl _
  | succ n ih =>
    cases s with
    | nil => intro r hr; simp [strncasecmp] at hr
    | cons a s =>
      cases t with
      | nil => intro r hr; simp [strncasecmp] at hr
      | cons b t =>
        obtain ⟨x, rfl⟩ := hs
        obtain ⟨y, rfl⟩ := ht
        rw [List.cons_append, List.cons_append, strncasecmp, strncasecmp]
        exact .ite (.refl _) (.ite (.refl _) (ih (List.prefix_append s x) (List.prefix_append t y)))

/-- A loop whose body yields the same with more memory. -/
lemma Loop.run_extends {σ τ : Type} {body body' : Loop.Body σ τ Fault}
    (h : ∀ s, Extends (body s) (body' s)) (n : ℕ) (s : σ) {a : τ}
    (hrun : Loop.run body n s = .ok (some a)) : Loop.run body' n s = .ok (some a) := by
  induction n generalizing s with
  | zero => simp at hrun
  | succ n ih =>
    rcases hb : body s with e | (s' | b)
    · simp [Loop.run, hb] at hrun
    · rw [Loop.run_succ_of_goes hb] at hrun
      rw [Loop.run_succ_of_goes (h s _ hb)]
      exact ih s' hrun
    · rw [Loop.run_succ_of_leaves hb] at hrun
      rwa [Loop.run_succ_of_leaves (h s _ hb)]

end Lib
