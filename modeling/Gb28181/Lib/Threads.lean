import Mathlib.Algebra.Ring.Nat
import Mathlib.Data.List.Basic
import Mathlib.Data.List.Perm.Basic

/-!
# Threads in a list

A group of threads is kept as the list of their program counters, in which one thread moves at
a time; what the threads do is kept as a list of pairs of a thread and its work.
-/

namespace Lib

variable {α β : Type*} {l : List α} {i j : ℕ} {a b : α}

/-- One element is replaced: what it counted goes, and what its successor counts comes. -/
lemma countP_set_add (p : α → Bool) (h : l[i]? = some a) :
    (l.set i b).countP p + (if p a = true then 1 else 0) =
      l.countP p + if p b = true then 1 else 0 := by
  obtain ⟨hlt, rfl⟩ := List.getElem?_eq_some_iff.1 h
  have hset := List.countP_set (p := p) (l := l) (i := i) (a := b) hlt
  have hpos : p l[i] = true → 0 < l.countP p := by
    intro hp
    exact List.countP_pos_iff.2 ⟨_, List.getElem_mem hlt, hp⟩
  rw [hset]
  split
  · next hp =>
    have := hpos hp
    omega
  · omega

/-- The same for a sum over the threads. -/
lemma sum_map_set_add (f : α → ℕ) (h : l[i]? = some a) :
    ((l.set i b).map f).sum + f a = (l.map f).sum + f b := by
  induction l generalizing i with
  | nil => simp at h
  | cons x l ih =>
    cases i with
    | zero =>
      obtain rfl : x = a := Option.some.inj h
      simp only [List.set_cons_zero, List.map_cons, List.sum_cons]
      omega
    | succ i =>
      have hset := ih (i := i) h
      simp only [List.set_cons_succ, List.map_cons, List.sum_cons]
      omega

/-- The threads of a list after one of them has moved. -/
lemma getElem?_set_cases (h : (l.set i b)[j]? = some a) :
    (j = i ∧ a = b) ∨ (j ≠ i ∧ l[j]? = some a) := by
  by_cases hji : j = i
  · subst hji
    have hlt : j < l.length := by simpa using (List.getElem?_eq_some_iff.1 h).1
    rw [List.getElem?_set_self hlt, Option.some.injEq] at h
    exact Or.inl ⟨rfl, h.symm⟩
  · rw [List.getElem?_set_ne (Ne.symm hji)] at h
    exact Or.inr ⟨hji, h⟩

/-- The threads of a list after a new one has come. -/
lemma getElem?_concat_cases (h : (l ++ [b])[j]? = some a) :
    l[j]? = some a ∨ (j = l.length ∧ a = b) := by
  rcases Nat.lt_or_ge j l.length with hlt | hge
  · rw [List.getElem?_append_left hlt] at h
    exact Or.inl h
  · rw [List.getElem?_append_right hge, List.getElem?_singleton] at h
    split at h
    · next hj => exact Or.inr ⟨by omega, (Option.some.inj h).symm⟩
    · exact absurd h (by simp)

/-- The work of a thread after one of them has done something. -/
lemma filter_concat (l : List (ℕ × β)) (i j : ℕ) (x : β) :
    ((l ++ [(i, x)]).filter fun y => y.1 == j) =
      (l.filter fun y => y.1 == j) ++ if j = i then [(j, x)] else [] := by
  rw [List.filter_append]
  by_cases hji : j = i
  · subst hji
    simp
  · simp [hji, Ne.symm hji]

/-- Two lists of work are the same up to the order if every thread has the same work in both. -/
lemma perm_of_filter_eq {l l' : List (ℕ × β)}
    (h : ∀ k, (l.filter fun x => x.1 == k) = l'.filter fun x => x.1 == k) : l.Perm l' := by
  classical
  refine List.perm_iff_count.2 fun a => ?_
  have hcount : ∀ m : List (ℕ × β), m.count a = (m.filter fun x => x.1 == a.1).count a := by
    intro m
    rw [List.count_filter (by simp)]
  rw [hcount l, hcount l', h]

end Lib
