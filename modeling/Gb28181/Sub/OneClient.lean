import Gb28181.Sub.RegisterProc

/-!
# The registration clients of a node

Every call of `gbRegister` that succeeds leaves a client behind, and only a 200 answer keeps
`RegisterProc` from calling it again.  So the live clients of a node are as many as the calls
that succeeded for it, and there is at most one as long as no client is made after a success.
-/

namespace Sub

open Lib Conf Sip

/-- At most one client of a node is live; so no two of them have a REGISTER outstanding, and no
two refresh the registration. -/
structure OneClient (s : State) : Prop where
  live : ∀ k, s.count Phase.live k ≤ 1
  outstanding : ∀ k, s.count (· == .outstanding) k ≤ 1
  refreshed : ∀ k, s.count (· == .scheduled) k ≤ 1

/-- Whether a call of `gbRegister` for a node has a client. -/
def Pc.busy (pc : Pc) (k : ℕ) : ℕ := if pc.client.map Prod.fst = some k then 1 else 0

/-- Every live client was left by a call that succeeded or is that of the call under way. -/
structure Accounted (s : State) : Prop where
  live : ∀ k, s.count Phase.live k = s.succeeded.count k + s.pc.busy k
  underWay : ∀ k c, s.pc.client = some (k, c) →
    ∃ phase, s.clients[c]? = some ⟨k, phase⟩ ∧ phase.live = true

/-- A client is made only for a node for which no call has succeeded before. -/
def FirstClient (s : State) (e : Event) : Prop :=
  ∀ k, s.pc = .create k → e = .ret 0 → k ∉ s.succeeded

variable {gConfig : SipLocalConfig SupNodeInfo} {s s' : State} {e : Event} {k c j : ℕ}

lemma busy_of_none {pc : Pc} (h : pc.client = none) : pc.busy k = 0 := by
  rw [Pc.busy, h]
  rfl

lemma busy_of_some {pc : Pc} (h : pc.client = some (k, c)) :
    pc.busy j = if j = k then 1 else 0 := by
  rw [Pc.busy, h]
  simp only [Option.map_some, Option.some.injEq, eq_comm (a := k)]

lemma count_mono {p q : Phase → Bool} (h : ∀ phase, p phase = true → q phase = true) :
    s.count p k ≤ s.count q k := by
  refine List.countP_mono_left fun cl _ hcl => ?_
  rw [Bool.and_eq_true] at hcl ⊢
  exact ⟨hcl.1, h _ hcl.2⟩

lemma oneClient_iff : OneClient s ↔ ∀ k, s.count Phase.live k ≤ 1 := by
  refine ⟨OneClient.live, fun h => ⟨h, fun k => ?_, fun k => ?_⟩⟩
  · exact (count_mono fun phase hp => by simp_all [Phase.live]).trans (h k)
  · exact (count_mono fun phase hp => by simp_all [Phase.live]).trans (h k)

lemma underWay_setPhase {phase phase' : Phase} {k' c' : ℕ}
    (hc : s.clients[c]? = some ⟨k, phase⟩) (hlive' : phase'.live = true)
    (h : ∃ phase, s.clients[c']? = some ⟨k', phase⟩ ∧ phase.live = true) :
    ∃ phase, (s.setPhase k c phase').clients[c']? = some ⟨k', phase⟩ ∧ phase.live = true := by
  obtain ⟨hlt, -⟩ := List.getElem?_eq_some_iff.1 hc
  obtain ⟨phase₀, hc', hlive₀⟩ := h
  by_cases hcc : c = c'
  · subst hcc
    obtain rfl : k = k' := by
      rw [hc] at hc'
      exact congrArg Client.token (Option.some.inj hc')
    exact ⟨phase', List.getElem?_set_self hlt, hlive'⟩
  · exact ⟨phase₀, (List.getElem?_set_ne hcc).trans hc', hlive₀⟩

lemma afterAnswer_live (code : ℤ) : (afterAnswer code).live = true := by
  rw [afterAnswer]
  split <;> rfl

/-- What a step does to the number of live clients. -/
lemma count_live_step (hs : Accounted s) (h : Goes gConfig s e s') :
    s'.count Phase.live j ≤ s.count Phase.live j ∨
      ∃ k, s.pc = .create k ∧ e = .ret 0 ∧
        s'.count Phase.live j = s.count Phase.live j + if j = k then 1 else 0 := by
  cases h with
  | tick | done | skip | call | noClient | init | send => exact Or.inl le_rfl
  | @create k hpc => exact Or.inr ⟨k, hpc, rfl, count_live_create⟩
  | register hpc =>
    obtain ⟨phase, hc, hlive⟩ := hs.underWay _ _ (by rw [hpc, Pc.client])
    exact Or.inl (count_live_setPhase hc hlive rfl).le
  | giveUp hpc =>
    obtain ⟨phase, hc, hlive⟩ := hs.underWay _ _ hpc
    exact Or.inl (Nat.le_of_add_right_le (count_giveUp hc hlive).le)
  | callback hc => exact Or.inl (count_live_setPhase hc rfl (afterAnswer_live _)).le
  | refresh hc => exact Or.inl (count_live_setPhase hc rfl rfl).le

lemma accounted_goto {pc : Pc} (hs : Accounted s) (hclient : s.pc.client = pc.client) :
    Accounted (s.goto pc) := by
  refine ⟨fun k => ?_, fun k c h => hs.underWay k c (hclient.trans h)⟩
  rw [count_goto, hs.live, Pc.busy, hclient]
  rfl

lemma accounted_setPhase {phase phase' : Phase} (hs : Accounted s)
    (hc : s.clients[c]? = some ⟨k, phase⟩) (hlive : phase.live = true)
    (hlive' : phase'.live = true) : Accounted (s.setPhase k c phase') := by
  refine ⟨fun j => ?_, fun k' c' h => underWay_setPhase hc hlive' (hs.underWay k' c' h)⟩
  rw [count_live_setPhase hc hlive hlive']
  exact hs.live j

lemma accounted_step (hs : Accounted s) (h : Goes gConfig s e s') : Accounted s' := by
  cases h with
  | tick hpc | done hpc | skip hpc | call hpc | noClient hpc | init hpc =>
    exact accounted_goto hs (by rw [hpc]; rfl)
  | @create k hpc =>
    have hfree : s.pc.client = none := by rw [hpc]; rfl
    have hbusy : (s.create k).pc.client = some (k, s.clients.length) := rfl
    refine ⟨fun j => ?_, fun k' c' h => ?_⟩
    · rw [count_live_create, hs.live, busy_of_none hfree, busy_of_some hbusy, Nat.add_zero]
      rfl
    · rw [hbusy, Option.some.injEq, Prod.mk.injEq] at h
      obtain ⟨rfl, rfl⟩ := h
      exact ⟨.created, by simp [State.create], rfl⟩
  | register hpc =>
    obtain ⟨phase, hc, hlive⟩ := hs.underWay _ _ (by rw [hpc]; rfl)
    refine accounted_goto (accounted_setPhase hs hc hlive rfl) ?_
    rw [State.setPhase, hpc]
    rfl
  | @send k c hpc =>
    -- the client that was under way is now one of those left behind
    have hbusy : s.pc.client = some (k, c) := by rw [hpc]; rfl
    refine ⟨fun j => ?_, fun k' c' h => by cases h⟩
    rw [busy_of_none rfl, List.count_cons]
    simp only [Nat.add_zero, beq_iff_eq, eq_comm (a := k)]
    rw [← busy_of_some hbusy]
    exact hs.live j
  | @giveUp k c _ hpc =>
    obtain ⟨phase, hc, hlive⟩ := hs.underWay _ _ hpc
    refine ⟨fun j => ?_, fun k' c' h => by cases h⟩
    have hgone := count_giveUp (j := j) hc hlive
    rw [hs.live, busy_of_some hpc] at hgone
    rw [busy_of_none rfl]
    exact Nat.add_right_cancel hgone
  | @callback k c code hc =>
    have h := accounted_setPhase hs hc rfl (afterAnswer_live code)
    exact ⟨h.live, h.underWay⟩
  | refresh hc => exact accounted_setPhase hs hc rfl rfl

lemma eq_create_of_goes (hpc : s.pc = .create k) (h : Goes gConfig s (.ret 0) s') :
    s' = s.create k := by
  cases h with
  | noClient _ hstatus => exact absurd rfl hstatus
  | create hpc' =>
    rw [hpc, Pc.create.injEq] at hpc'
    rw [hpc']
  | init hpc' | register hpc' | send hpc' => simp [hpc] at hpc'
  | giveUp hpc' => simp [hpc, Pc.client] at hpc'

/-- A step keeps the number of clients at one exactly when it does not make a second one. -/
lemma oneClient_step (hs : Accounted s) (hone : OneClient s) (h : Goes gConfig s e s') :
    OneClient s' ↔ FirstClient s e := by
  have hfree : ∀ {k}, s.pc = .create k → ∀ j, s.count Phase.live j = s.succeeded.count j :=
    fun hpc j => by
      rw [hs.live, busy_of_none (by rw [hpc]; rfl), Nat.add_zero]
  rw [oneClient_iff]
  constructor
  · rintro hone' k hpc rfl
    obtain rfl := eq_create_of_goes hpc h
    have hcount := hone' k
    rw [count_live_create, if_pos rfl, hfree hpc] at hcount
    rw [← List.count_eq_zero]
    omega
  · intro hfirst j
    have hle := hone.live j
    rcases count_live_step (j := j) hs h with hle' | ⟨k, hpc, rfl, hcount⟩
    · exact hle'.trans hle
    · have hzero := List.count_eq_zero.2 (hfirst k hpc rfl)
      rw [hcount]
      split
      · next hj => rw [hj, hfree hpc, hzero]
      · exact hle

/-- In every run a node has at most one live client all along exactly when a client is made only
for nodes for which `gbRegister` has not succeeded before. -/
theorem always_oneClient_iff (gConfig : SipLocalConfig SupNodeInfo) (es : List Event) :
    Lib.Trace.Always (step gConfig) OneClient (start gConfig) es ↔
      Lib.Trace.EachStep (step gConfig) FirstClient (start gConfig) es := by
  have hstart : Accounted (start gConfig) := ⟨fun _ => rfl, nofun⟩
  refine Lib.Trace.always_iff_eachStep hstart ?_
    (fun _ _ _ hs h => accounted_step hs (goes_of_step h))
    (fun _ _ _ hs hone h => oneClient_step hs hone (goes_of_step h)) es
  exact oneClient_iff.2 fun _ => Nat.zero_le 1

/-- `RegisterProc` finds a node for which `gbRegister` has succeeded registered: the 200 answer
has come before. -/
def AnsweredInTime (s : State) (e : Event) : Prop :=
  ∀ k node, s.pc = .visit k → e = .visit → s.nodes[k]? = some node → k ∈ s.succeeded →
    node.registered = true

/-- If every answer comes in time, no second client is made. -/
theorem firstClient_of_answeredInTime {es : List Event}
    (h : Lib.Trace.EachStep (step gConfig) AnsweredInTime (start gConfig) es) :
    Lib.Trace.EachStep (step gConfig) FirstClient (start gConfig) es := by
  have hall : Lib.Trace.Always (step gConfig) (fun s => ∀ k, s.pc = .create k → k ∉ s.succeeded)
      (start gConfig) es := by
    refine Lib.Trace.always_of_eachStep nofun (fun s e s' hs hanswered hstep => ?_) h
    intro k hpc
    cases goes_of_step hstep with
    | @call k' node hpc' hnode hreg =>
      -- the test of `registered` has failed
      obtain rfl : k' = k := Pc.create.inj hpc
      intro hmem
      have := hanswered _ _ hpc' rfl hnode hmem
      simp [hreg] at this
    | callback | refresh => exact hs k hpc
    | _ => simp [State.goto, State.giveUp, State.create] at hpc
  intro pre e hpre u u' hu _ k hpc _
  exact hall pre ((List.prefix_append _ _).trans hpre) u hu k hpc

/-- The timer calls `RegisterProc` again before the answer to the first REGISTER has come. -/
theorem not_always_oneClient_twoPasses :
    ¬ Lib.Trace.Always (step oneNode) OneClient (start oneNode) (pass ++ pass) := by
  intro h
  have hlast := h _ List.prefix_rfl _ rfl
  exact absurd (hlast.outstanding 0) (by decide)

end Sub
