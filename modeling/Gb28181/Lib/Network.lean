import Mathlib.Data.List.Basic

/-!
# An unreliable network

The messages in flight are a list, of which any one can be lost, duplicated or delivered next; so
they are delayed and reordered arbitrarily.  No message is ever made up (`mem_of_mem_suffer`,
`mem_of_deliver`).
-/

namespace Lib.Network

variable {μ : Type*} {net rest : List μ} {m m' : μ} {i : ℕ}

/-- What the network does to a message by itself. -/
inductive Fate where
  | lose (i : ℕ)
  | duplicate (i : ℕ)
  deriving DecidableEq, Repr

/-- The messages in flight afterwards. -/
def suffer (net : List μ) : Fate → List μ
  | .lose i => net.eraseIdx i
  | .duplicate i => net ++ net[i]?.toList

/-- The message that is delivered, and those that are still in flight. -/
def deliver (net : List μ) (i : ℕ) : Option (μ × List μ) :=
  net[i]?.map fun m => (m, net.eraseIdx i)

lemma mem_of_mem_suffer {f : Fate} (h : m ∈ suffer net f) : m ∈ net := by
  cases f with
  | lose i => exact List.mem_of_mem_eraseIdx h
  | duplicate i =>
    rcases List.mem_append.1 h with h | h
    · exact h
    · exact List.mem_of_getElem? (Option.mem_toList.1 h)

lemma mem_of_deliver (h : deliver net i = some (m, rest)) : m ∈ net ∧ ∀ m' ∈ rest, m' ∈ net := by
  rw [deliver, Option.map_eq_some_iff] at h
  obtain ⟨m₀, hget, heq⟩ := h
  obtain ⟨rfl, rfl⟩ := Prod.mk.inj heq
  exact ⟨List.mem_of_getElem? hget, fun m' hm' => List.mem_of_mem_eraseIdx hm'⟩

end Lib.Network
