import Gb28181.Conf.SipLocalConfig

/-!
# What `ReadConf` accepts

A configuration that `ReadConf` accepts was put together from results of `readStr` and `readInt`:
its texts are not empty and hold no blank, and its numbers are values of an `int`.
-/

namespace Conf

open Lib

/-- A text that `ReadConf` takes for a setting of the service. -/
structure Accepted (v : Text) : Prop where
  ne_nil : v ≠ []
  mem : ∀ c ∈ v, blank c = false ∧ c ≠ nul

lemma Accepted.nul_notMem {v : Text} (h : Accepted v) : nul ∉ v := fun hc => (h.mem nul hc).2 rfl

section ReadConf

variable {file : Option Text} {stack : Stacks} {keys : NodeKeys} {sec key v : Text} {z : ℤ}

lemma mem_trimBuf {buf : Text} {c : Char} (h : c ∈ (trimBuf buf).takeWhile (· != nul)) :
    blank c = false ∧ c ≠ nul := by
  induction buf with
  | nil => simp [trimBuf] at h
  | cons d buf ih =>
    rw [trimBuf] at h
    split at h
    · simp at h
    · next hd =>
      have hd' : blank d = false ∧ d ≠ nul := by simpa using hd
      rw [List.takeWhile_cons_of_pos (by simpa using hd'.2), List.mem_cons] at h
      rcases h with rfl | h
      · exact hd'
      · exact ih h

/-- Whatever `readStr` returns holds no blank. -/
lemma accepted_of_readStr {stack : StackBuf} (h : readStr file stack sec key = .ok v)
    (hne : v.isEmpty = false) : Accepted v := by
  obtain ⟨⟨buf, found⟩, -, h⟩ := bind_eq_ok.1 h
  refine ⟨List.isEmpty_eq_false_iff.1 hne, fun c hc => ?_⟩
  simp only [ofCStr] at h
  split at h
  · obtain rfl := Except.ok.inj h
    exact mem_trimBuf hc
  · simp at h

lemma isInt32_of_readInt (h : readInt file sec key = .ok z) : IsInt32 z := by
  obtain ⟨⟨value, found⟩, -, h⟩ := bind_eq_ok.1 h
  cases found with
  | true =>
    obtain ⟨s, -, h⟩ := bind_eq_ok.1 h
    exact Except.ok.inj h ▸ isInt32_atoi s
  | false =>
    obtain rfl := Except.ok.inj h
    exact ⟨by decide, by decide⟩

variable {ν : Type} {info : Text → Text → ℤ → ℤ → ℤ → ν}

/-- What a configuration is made of. -/
lemma readConf_eq_some {conf : SipLocalConfig ν}
    (h : readConf file stack keys info = .ok (some conf)) :
    Accepted conf.sipId ∧ Accepted conf.sipIp ∧
      (readInt file sipSection keySipPort = .ok conf.sipPort ∧ 0 < conf.sipPort) ∧
      ∃ n, readNodes file stack keys info n 1 = .ok conf.nodeInfoList := by
  rw [readConf, bind_eq_ok] at h
  obtain ⟨localIp, -, h⟩ := h
  split at h
  · simp at h
  obtain ⟨localPort, -, h⟩ := bind_eq_ok.1 h
  split at h
  · simp at h
  obtain ⟨sipId, hid, h⟩ := bind_eq_ok.1 h
  split at h
  · simp at h
  next hid' =>
  obtain ⟨sipIp, hip, h⟩ := bind_eq_ok.1 h
  split at h
  · simp at h
  next hip' =>
  obtain ⟨sipPort, hport, h⟩ := bind_eq_ok.1 h
  split at h
  · simp at h
  next hport' =>
  obtain ⟨num, -, h⟩ := bind_eq_ok.1 h
  obtain ⟨list, hlist, h⟩ := bind_eq_ok.1 h
  simp only [pure_eq_ok, Except.ok.injEq, Option.some.injEq] at h
  subst h
  exact ⟨accepted_of_readStr hid (Bool.not_eq_true _ ▸ hid'),
    accepted_of_readStr hip (Bool.not_eq_true _ ▸ hip'), ⟨hport, Int.not_le.1 hport'⟩, _, hlist⟩

lemma readNode_of_readNodes {n i k : ℕ} {list : List ν} {node : ν}
    (h : readNodes file stack keys info n i = .ok list) (hk : list[k]? = some node) :
    readNode file stack keys info (i + k) = .ok node := by
  induction n generalizing i k list with
  | zero =>
    obtain rfl : [] = list := Except.ok.inj h
    simp at hk
  | succ n ih =>
    simp only [readNodes, bind_eq_ok, pure_eq_ok, Except.ok.injEq] at h
    obtain ⟨node', hnode, rest, hrest, rfl⟩ := h
    cases k with
    | zero =>
      obtain rfl : node' = node := by simpa using hk
      exact hnode
    | succ k =>
      have := ih hrest (by simpa using hk)
      rwa [Nat.add_assoc, Nat.add_comm 1] at this

/-- What a node is made of. -/
lemma readNode_eq_ok {i : ℕ} {node : ν} (h : readNode file stack keys info i = .ok node) :
    ∃ id ip port poto last, node = info id ip port poto last ∧
      readStr file (stack sipSection (keys.id ++ to_string i)) sipSection
        (keys.id ++ to_string i) = .ok id ∧
      readStr file (stack sipSection (keys.ip ++ to_string i)) sipSection
        (keys.ip ++ to_string i) = .ok ip ∧
      readInt file sipSection (keys.port ++ to_string i) = .ok port ∧
      readInt file sipSection (keys.poto ++ to_string i) = .ok poto ∧
      readInt file sipSection (keys.last ++ to_string i) = .ok last := by
  simp only [readNode, bind_eq_ok, pure_eq_ok, Except.ok.injEq] at h
  obtain ⟨id, hid, ip, hip, port, hport, poto, hpoto, last, hlast, rfl⟩ := h
  exact ⟨id, ip, port, poto, last, rfl, hid, hip, hport, hpoto, hlast⟩

/-- The expiry of an upper node is a value of an `int`. -/
lemma isInt32_expires {conf : SipLocalConfig SupNodeInfo} {node : SupNodeInfo}
    (h : readConfSub file stack = .ok (some conf)) (hnode : node ∈ conf.nodeInfoList) :
    IsInt32 node.expires := by
  obtain ⟨-, -, -, n, hn⟩ := readConf_eq_some h
  obtain ⟨k, hk⟩ := List.mem_iff_getElem?.1 hnode
  obtain ⟨id, ip, port, poto, last, rfl, -, -, -, -, hlast⟩ :=
    readNode_eq_ok (readNode_of_readNodes hn hk)
  exact isInt32_of_readInt hlast

end ReadConf

end Conf
