import Gb28181.Sub.RegisterProc

/-!
# The flag of an upper node

`client_cb` sets `registered` when the answer is 200 and leaves it alone otherwise, so that it
says whether there ever was a 200 answer.  It follows the answers as long as no refresh of a
registration fails.
-/

namespace Sub

open Lib Conf Sip

/-- The code with which `client_cb` was called last for a node. -/
def lastCode (answers : List (ℕ × ℤ)) (k : ℕ) : Option ℤ :=
  (answers.find? fun answer => answer.1 == k).map Prod.snd

/-- Every node that has been answered is registered if and only if the last code was 200, and if it
was not, `RegisterProc` calls `gbRegister` when it next comes to the node. -/
structure FollowsAnswers (gConfig : SipLocalConfig SupNodeInfo) (s : State) : Prop where
  flag : ∀ k node code, s.nodes[k]? = some node → lastCode s.answers k = some code →
    (node.registered = true ↔ code = 200)
  retried : ∀ k node code, s.nodes[k]? = some node → lastCode s.answers k = some code → code ≠ 200 →
    ∀ s', step gConfig (s.goto (.visit k)) .visit = some s' → s'.pc = .create k

/-- The node for which `gbRegister` is under way. -/
def Pc.node : Pc → Option ℕ
  | .create k | .init k _ | .register k _ | .send k _ => some k
  | .wait | .visit _ => none

/-- The flag says whether there was a 200 answer, and the tokens of the clients are nodes. -/
structure Recorded (s : State) : Prop where
  flag : ∀ k node, s.nodes[k]? = some node → (node.registered = true ↔ (k, 200) ∈ s.answers)
  current : ∀ k, s.pc.node = some k → k < s.nodes.length
  token : ∀ cl ∈ s.clients, cl.token < s.nodes.length

/-- An answer other than 200 comes only for nodes that had no 200 answer before. -/
def FailsFirst (s : State) (e : Event) : Prop :=
  ∀ c cl code, e = .callback c code → s.clients[c]? = some cl → (cl.token, 200) ∈ s.answers →
    code = 200

variable {gConfig : SipLocalConfig SupNodeInfo} {s s' : State} {e : Event} {k c : ℕ}

lemma lastCode_cons {answers : List (ℕ × ℤ)} {code : ℤ} {j : ℕ} :
    lastCode ((k, code) :: answers) j = if k = j then some code else lastCode answers j := by
  rw [lastCode, List.find?_cons]
  by_cases hkj : k = j
  · simp [hkj]
  · rw [if_neg hkj, lastCode, beq_false_of_ne hkj]

/-- The second part of `FollowsAnswers` follows from the first one. -/
lemma followsAnswers_iff : FollowsAnswers gConfig s ↔
    ∀ k node code, s.nodes[k]? = some node → lastCode s.answers k = some code →
      (node.registered = true ↔ code = 200) := by
  refine ⟨FollowsAnswers.flag, fun h => ⟨h, fun k node code hnode hlast hcode s' hs' => ?_⟩⟩
  have hreg : node.registered = false := by
    rw [← Bool.not_eq_true, h k node code hnode hlast]
    exact hcode
  have hgoes : (s.goto (.visit k)).visit gConfig k = some s' := hs'
  have hnode' : (s.goto (.visit k)).nodes[k]? = some node := hnode
  simp only [State.visit, hnode', hreg, Bool.false_eq_true, if_false] at hgoes
  split at hgoes
  · simp at hgoes
  · obtain rfl := Option.some.inj hgoes
    rfl

lemma length_clientCb {nodes : List SupDomainInfo} {code : ℤ} :
    (clientCb nodes k code).length = nodes.length := by
  rw [clientCb]
  split <;> simp

lemma getElem?_clientCb {nodes : List SupDomainInfo} {code : ℤ} {j : ℕ} {node : SupDomainInfo}
    (h : (clientCb nodes k code)[j]? = some node) :
    ∃ node₀, nodes[j]? = some node₀ ∧
      (node.registered = true ↔ node₀.registered = true ∨ j = k ∧ code = 200) := by
  rw [clientCb] at h
  split at h
  · next hcode =>
    rw [List.getElem?_modify] at h
    obtain ⟨node₀, hnode₀, rfl⟩ := Option.map_eq_some_iff.1 h
    refine ⟨node₀, hnode₀, ?_⟩
    by_cases hjk : k = j
    · simp [hjk, hcode]
    · simp [hjk, Ne.symm hjk]
  · next hcode => exact ⟨node, h, by simp [hcode]⟩

lemma Pc.node_of_client {pc : Pc} (h : pc.client = some (k, c)) : pc.node = some k := by
  cases pc <;> simp_all [Pc.client, Pc.node]

lemma token_setPhase {phase : Phase} (hs : Recorded s) (hk : k < s.nodes.length) :
    ∀ cl ∈ (s.setPhase k c phase).clients, cl.token < s.nodes.length := by
  intro cl hcl
  rcases List.mem_or_eq_of_mem_set hcl with hcl | rfl
  · exact hs.token cl hcl
  · exact hk

lemma recorded_step (hs : Recorded s) (h : Goes gConfig s e s') : Recorded s' := by
  cases h with
  | tick | done | skip | noClient => exact ⟨hs.flag, nofun, hs.token⟩
  | @call k node hpc hnode =>
    refine ⟨hs.flag, fun j hj => ?_, hs.token⟩
    obtain rfl := Option.some.inj hj
    exact (List.getElem?_eq_some_iff.1 hnode).1
  | @create k hpc =>
    have hk : k < s.nodes.length := hs.current k (by rw [hpc]; rfl)
    refine ⟨hs.flag, fun j hj => Option.some.inj hj ▸ hk, fun cl hcl => ?_⟩
    rcases List.mem_append.1 hcl with hcl | hcl
    · exact hs.token cl hcl
    · exact List.mem_singleton.1 hcl ▸ hk
  | @init k c hpc =>
    have hk : k < s.nodes.length := hs.current k (by rw [hpc]; rfl)
    exact ⟨hs.flag, fun j hj => Option.some.inj hj ▸ hk, hs.token⟩
  | @register k c hpc =>
    have hk : k < s.nodes.length := hs.current k (by rw [hpc]; rfl)
    exact ⟨hs.flag, fun j hj => Option.some.inj hj ▸ hk, token_setPhase hs hk⟩
  | send hpc => exact ⟨hs.flag, nofun, hs.token⟩
  | @giveUp k c _ hpc =>
    exact ⟨hs.flag, nofun, token_setPhase hs (hs.current k (Pc.node_of_client hpc))⟩
  | @callback k c code hc =>
    have hk : k < s.nodes.length := hs.token _ (List.mem_of_getElem? hc)
    refine ⟨fun j node hnode => ?_, fun j hj => ?_, fun cl hcl => ?_⟩
    · obtain ⟨node₀, hnode₀, hreg⟩ := getElem?_clientCb hnode
      rw [hreg, hs.flag j node₀ hnode₀, List.mem_cons, Prod.mk.injEq, or_comm, eq_comm (a := code)]
    · exact length_clientCb.symm ▸ hs.current j hj
    · exact length_clientCb.symm ▸ token_setPhase hs hk cl hcl
  | refresh hc =>
    have hk := hs.token _ (List.mem_of_getElem? hc)
    exact ⟨hs.flag, hs.current, token_setPhase hs hk⟩

/-- A step keeps the flags in line with the answers exactly when it is not an answer other than 200
after a 200. -/
lemma followsAnswers_step (hs : Recorded s) (hp : FollowsAnswers gConfig s)
    (h : Goes gConfig s e s') : FollowsAnswers gConfig s' ↔ FailsFirst s e := by
  rw [followsAnswers_iff]
  cases h with
  | @callback k c code hc =>
    have hk : k < s.nodes.length := hs.token _ (List.mem_of_getElem? hc)
    constructor
    · rintro hflag c' cl code' he hcl hmem
      obtain ⟨rfl, rfl⟩ := Event.callback.inj he
      obtain rfl := Option.some.inj (hc.symm.trans hcl)
      obtain ⟨node, hnode⟩ : ∃ node, (clientCb s.nodes k code)[k]? = some node :=
        ⟨_, List.getElem?_eq_getElem (length_clientCb.symm ▸ hk)⟩
      obtain ⟨node₀, hnode₀, hreg⟩ := getElem?_clientCb hnode
      have hreg₀ : node₀.registered = true := (hs.flag k node₀ hnode₀).2 hmem
      exact (hflag k node code hnode (by rw [lastCode_cons, if_pos rfl])).1 (hreg.2 (Or.inl hreg₀))
    · intro hfails j node code' hnode hlast
      obtain ⟨node₀, hnode₀, hreg⟩ := getElem?_clientCb hnode
      rw [lastCode_cons] at hlast
      split at hlast
      · -- this is the last answer for the node
        next hkj =>
        subst hkj
        obtain rfl := Option.some.inj hlast
        rw [hreg, hs.flag k node₀ hnode₀]
        exact ⟨fun hor => hor.elim (hfails c _ code rfl hc) (·.2), fun hcode => Or.inr ⟨rfl, hcode⟩⟩
      · next hkj =>
        rw [hreg, or_iff_left fun hor => hkj hor.1.symm]
        exact hp.flag j node₀ code' hnode₀ hlast
  | _ =>
    exact iff_of_true hp.flag fun c cl code he => by simp at he

/-- In every run the flags follow the answers all along exactly when no answer other than 200 comes
for a node that has had a 200 answer. -/
theorem always_followsAnswers_iff (gConfig : SipLocalConfig SupNodeInfo) (es : List Event) :
    Lib.Trace.Always (step gConfig) (FollowsAnswers gConfig) (start gConfig) es ↔
      Lib.Trace.EachStep (step gConfig) FailsFirst (start gConfig) es := by
  have hstart : Recorded (start gConfig) := by
    refine ⟨fun k node hnode => ?_, nofun, nofun⟩
    rw [start, List.getElem?_map] at hnode
    obtain ⟨_, -, rfl⟩ := Option.map_eq_some_iff.1 hnode
    simp [infoOf, start]
  refine Lib.Trace.always_iff_eachStep hstart ?_
    (fun _ _ _ hs h => recorded_step hs (goes_of_step h))
    (fun _ _ _ hs hp h => followsAnswers_step hs hp (goes_of_step h)) es
  exact followsAnswers_iff.2 nofun

/-- The node is registered, and the refresh of the registration is refused. -/
def refusedRefresh : List Event := pass ++ [.callback 0 200, .refresh 0, .callback 0 503]

/-- The node stays registered. -/
theorem not_always_followsAnswers_refusedRefresh :
    ¬ Lib.Trace.Always (step oneNode) (FollowsAnswers oneNode) (start oneNode)
      refusedRefresh := by
  intro h
  have hlast := h _ List.prefix_rfl _ rfl
  exact absurd ((hlast.flag 0 _ 503 rfl rfl).1 rfl) (by decide)

end Sub
