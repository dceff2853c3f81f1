import Gb28181.Lib.Simulation
import Gb28181.Sip.Outcome
import Gb28181.Sub.Clients
import Gb28181.Sub.OneClient

/-!
# The phases of a client are enough

Each step of the service with its clients in full is matched by steps of the service in which a
client is just in a phase: refreshes and answers that reach `client_cb` by the same events,
repetitions by nothing at all.  So what was shown of the runs of the one holds of the other.  The
service with the phases calls `client_cb` once for each request; the second call, for a
request that the client could not even send, is not there, and it is without effect.
-/

namespace Sub.Clients

open Lib Conf Sip Lib.Simulation Sip.Registrant

/-- Where the thread stands in the service with the phases. -/
def Pc.toPhases : Pc → Sub.Pc
  | .wait => .wait
  | .visit k => .visit k
  | .create k => .create k
  | .init k c => .init k c
  | .register k c => .register k c
  | .send k c => .send k c
  | .sent k c _ => .send k c

/-- A client and its phase. -/
structure Matches (b : Binding) (cl : Sub.Client) : Prop where
  token : cl.token = b.token
  pending : b.regc.tsxs ≠ [] → cl.phase = .outstanding
  scheduled : b.regc.timer.isSome = true → cl.phase = .scheduled
  released : b.regc.released = true ↔ cl.phase = .destroyed

/-- A client is in use and was not destroyed, or it is released. -/
def Sane (b : Binding) : Prop := Active 0 b.regc ∨ Gone b.regc

/-- The calls with the code 200. -/
def ok (answers : List (ℕ × ℤ)) : List (ℕ × ℤ) := answers.filter fun a => a.2 == 200

lemma ok_cons (a : ℕ × ℤ) (answers : List (ℕ × ℤ)) :
    ok (a :: answers) = if a.2 == 200 then a :: ok answers else ok answers := List.filter_cons

/-- The client that `gbRegister` is about to use. -/
def Owns (clients : List Binding) : Pc → Prop
  | .init k c | .register k c | .send k c =>
    ∃ r, clients[c]? = some ⟨k, r⟩ ∧ Bare 0 r ∧ r.sending = false
  | .sent k c status => ∃ r, clients[c]? = some ⟨k, r⟩ ∧ Active 0 r ∧ (status ≠ 0 → Bare 0 r)
  | _ => True

/-- The two services agree, but for where the thread stands. -/
structure Agrees (s : State) (t : Sub.State) : Prop where
  nodes : t.nodes = s.nodes
  succeeded : t.succeeded = s.succeeded
  answers : ok t.answers = ok s.answers
  clients : List.Forall₂ Matches s.clients t.clients
  sane : ∀ b ∈ s.clients, Sane b

/-- The two services agree, and the thread has what it needs. -/
structure Refines (s : State) (t : Sub.State) : Prop where
  agrees : Agrees s t
  pc : t.pc = s.pc.toPhases
  owns : Owns s.clients s.pc
  handed : ∀ k c, s.pc = .send k c → t.clients[c]? = some ⟨k, .outstanding⟩

variable {gConfig : SipLocalConfig SupNodeInfo} {s s' : State} {t t' : Sub.State} {e : Event}
  {k c : ℕ} {b : Binding} {r : Registrant × List ℤ} {reg : Registrant} {final : ℤ}

/-! ### Calls of the callback -/

/-- Codes other than 200 leave no trace. -/
lemma foldl_call {codes : List ℤ} (h : 200 ∉ codes) :
    ∃ answers, ok answers = ok s.answers ∧
      codes.foldl (fun s code => s.call k code) s = { s with answers := answers } := by
  induction codes generalizing s with
  | nil => exact ⟨s.answers, rfl, rfl⟩
  | cons code codes ih =>
    rw [List.mem_cons, not_or] at h
    obtain ⟨answers, hok, hfold⟩ := ih (s := s.call k code) h.2
    have hcb : clientCb s.nodes k code = s.nodes := if_neg (Ne.symm h.1)
    refine ⟨answers, ?_, ?_⟩
    · rw [hok, State.call, ok, List.filter_cons_of_neg (by simpa using Ne.symm h.1)]
      rfl
    · rw [List.foldl_cons, hfold, State.call, hcb]

/-- A client that has called its callback has done so, in effect, with the first code. -/
lemma change_called {code : ℤ} {rest : List ℤ} (hcalls : r.2 = code :: rest) (h : 200 ∉ rest) :
    ∃ answers, ok answers = ok ((k, code) :: s.answers) ∧ s.change k c r =
      { s with
        clients := s.clients.set c ⟨k, r.1⟩
        nodes := clientCb s.nodes k code
        answers := answers } := by
  obtain ⟨answers, hok, hfold⟩ := foldl_call (s := (s.set k c r.1).call k code) (k := k) h
  exact ⟨answers, hok, by rw [State.change, hcalls, List.foldl_cons, hfold]; rfl⟩

/-- What no call of the callback touches is as it was when the client had changed. -/
lemma change_of_call {γ : Type} (f : State → γ) (hcall : ∀ s code, f (s.call k code) = f s) :
    f (s.change k c r) = f (s.set k c r.1) := by
  have hfold : ∀ (codes : List ℤ) (s : State),
      f (codes.foldl (fun s code => s.call k code) s) = f s := by
    intro codes
    induction codes with
    | nil => exact fun s => rfl
    | cons code codes ih => exact fun s => (ih _).trans (hcall s code)
  exact hfold r.2 _

lemma clients_change : (s.change k c r).clients = s.clients.set c ⟨k, r.1⟩ :=
  change_of_call State.clients fun _ _ => rfl

lemma pc_change : (s.change k c r).pc = s.pc := change_of_call State.pc fun _ _ => rfl

/-! ### A client that moves -/

/-- One client moves in both services. -/
lemma Agrees.set (h : Agrees s t) (phase : Phase) (hs : s'.clients = s.clients.set c ⟨k, reg⟩)
    (ht : t'.clients = t.clients.set c ⟨k, phase⟩) (hnodes : t'.nodes = s'.nodes)
    (hsucceeded : t'.succeeded = s'.succeeded) (hok : ok t'.answers = ok s'.answers)
    (hm : Matches ⟨k, reg⟩ ⟨k, phase⟩) (hsane : Sane ⟨k, reg⟩) : Agrees s' t' where
  nodes := hnodes
  succeeded := hsucceeded
  answers := hok
  clients := by
    rw [hs, ht]
    exact forall₂_set h.clients hm
  sane := by
    rw [hs]
    intro b hb
    rcases List.mem_or_eq_of_mem_set hb with hb | rfl
    · exact h.sane b hb
    · exact hsane

lemma afterAnswer_eq_scheduled {code : ℤ} (h : code / 100 = 2) : afterAnswer code = .scheduled :=
  if_pos (by omega)

lemma afterAnswer_ne_destroyed (code : ℤ) : afterAnswer code ≠ .destroyed := by
  rw [afterAnswer]
  split <;> simp

/-- The call of the callback in the service with the phases. -/
lemma step_callback (gConfig : SipLocalConfig SupNodeInfo) (code : ℤ)
    (hc : t.clients[c]? = some ⟨k, .outstanding⟩) :
    ∃ t', Sub.step gConfig t (.callback c code) = some t' ∧
      t'.clients = t.clients.set c ⟨k, afterAnswer code⟩ ∧ t'.nodes = clientCb t.nodes k code ∧
      t'.pc = t.pc ∧ t'.succeeded = t.succeeded ∧ t'.answers = (k, code) :: t.answers := by
  refine ⟨{ t.setPhase k c (afterAnswer code) with
    nodes := clientCb t.nodes k code, answers := (k, code) :: t.answers }, ?_, rfl, rfl, rfl, rfl,
    rfl⟩
  rw [Sub.step, Sub.State.callback, hc]

/-- What becomes of a request that was outstanding, in both services. -/
lemma exists_run_change (gConfig : SipLocalConfig SupNodeInfo) (h : Agrees s t)
    (hb : s.clients[c]? = some b) (hout : Outcome final r) (hactive : Active 0 r.1) :
    ∃ fs t', Trace.run (Sub.step gConfig) (t.setPhase b.token c .outstanding) fs = some t' ∧
      t'.pc = t.pc ∧ (∃ phase, t'.clients = t.clients.set c ⟨b.token, phase⟩) ∧
      Agrees (s.change b.token c r) t' := by
  have hlive : ∀ phase : Phase, phase ≠ .destroyed →
      (r.1.released = true ↔ phase = .destroyed) := by
    intro phase hphase
    exact iff_of_false (by simp [hactive.held.released]) hphase
  cases hout with
  | silent calls timer =>
    have heq : s.change b.token c r = s.set b.token c r.1 := by rw [State.change, calls]; rfl
    refine ⟨[], _, rfl, rfl, ⟨.outstanding, rfl⟩, ?_⟩
    rw [heq]
    refine h.set _ rfl rfl h.nodes h.succeeded h.answers ⟨rfl, fun _ => rfl, fun ht => ?_, ?_⟩
      (Or.inl hactive)
    · exact absurd ht (by simp [timer])
    · exact hlive _ (by simp)
  | called code rest calls again tsxs timer =>
    obtain ⟨answers, hok, heq⟩ := change_called (s := s) (k := b.token) (c := c) calls again
    obtain ⟨cl, hcl, -⟩ := exists_of_forall₂ h.clients hb
    have hget : (t.setPhase b.token c .outstanding).clients[c]? =
        some ⟨b.token, .outstanding⟩ :=
      List.getElem?_set_self (List.getElem?_eq_some_iff.1 hcl).1
    obtain ⟨t', hstep, hclients, hnodes, hpc, hsucceeded, hanswers⟩ :=
      step_callback gConfig code hget
    have hset : t'.clients = t.clients.set c ⟨b.token, afterAnswer code⟩ :=
      hclients.trans (List.set_set _)
    refine ⟨[.callback c code], t', by rw [Trace.run_cons, hstep]; rfl, hpc, ⟨_, hset⟩, ?_⟩
    rw [heq]
    refine h.set _ rfl hset ?_ (hsucceeded.trans h.succeeded) ?_
      ⟨rfl, fun ht => absurd tsxs ht, fun ht => ?_, ?_⟩ (Or.inl hactive)
    · exact hnodes.trans (congrArg (fun nodes => clientCb nodes b.token code) h.nodes)
    · have hok' : ok (t.setPhase b.token c .outstanding).answers = ok s.answers := h.answers
      rw [hok, hanswers, ok_cons, ok_cons, hok']
    · exact afterAnswer_eq_scheduled (timer ht).2
    · exact hlive _ (afterAnswer_ne_destroyed code)

/-- The thread keeps what it needs while another client moves, or its own one that it has sent a
request with. -/
lemma owns_set {pc : Pc} {clients : List Binding} (h : Owns clients pc)
    (hb : clients[c]? = some b) (hbare : ¬ Bare 0 b.regc) (hactive : Active 0 reg) :
    Owns (clients.set c ⟨b.token, reg⟩) pc := by
  have hother : ∀ {k j : ℕ} {r : Registrant}, clients[j]? = some ⟨k, r⟩ → j ≠ c →
      (clients.set c ⟨b.token, reg⟩)[j]? = some ⟨k, r⟩ := fun hj hne => by
    rw [List.getElem?_set_ne hne.symm]
    exact hj
  have hown : ∀ {k j : ℕ}, (∃ r, clients[j]? = some ⟨k, r⟩ ∧ Bare 0 r ∧ r.sending = false) →
      ∃ r, (clients.set c ⟨b.token, reg⟩)[j]? = some ⟨k, r⟩ ∧ Bare 0 r ∧ r.sending = false := by
    rintro k j ⟨r, hj, hr, hsending⟩
    refine ⟨r, hother hj fun hjc => hbare ?_, hr, hsending⟩
    rw [hjc, hb] at hj
    exact Option.some.inj hj ▸ hr
  cases pc with
  | wait => trivial
  | visit k => trivial
  | create k => trivial
  | init k j => exact hown h
  | register k j => exact hown h
  | send k j => exact hown h
  | sent k j status =>
    obtain ⟨r, hj, hr, hfail⟩ := h
    by_cases hjc : j = c
    · subst hjc
      have heq : b = ⟨k, r⟩ := Option.some.inj (hb.symm.trans hj)
      have hlt : j < clients.length := (List.getElem?_eq_some_iff.1 hb).1
      refine ⟨reg, ?_, hactive, fun hstatus => ?_⟩
      · rw [List.getElem?_set_self hlt, heq]
      · exact absurd (heq ▸ hfail hstatus) hbare
    · exact ⟨r, hother hj hjc, hr, hfail⟩

/-- The request of a client that is not the one of the thread is answered or refreshed. -/
lemma refines_change (gConfig : SipLocalConfig SupNodeInfo) (h : Refines s t) (hb : s.clients[c]? = some b)
    (hbare : ¬ Bare 0 b.regc) (hout : Outcome final r) (hactive : Active 0 r.1) :
    ∃ fs t', Trace.run (Sub.step gConfig) (t.setPhase b.token c .outstanding) fs = some t' ∧
      Refines (s.change b.token c r) t' := by
  obtain ⟨fs, t', hrun, hpc, ⟨phase, hclients⟩, hagrees⟩ :=
    exists_run_change gConfig h.agrees hb hout hactive
  refine ⟨fs, t', hrun, hagrees, ?_, ?_, ?_⟩
  · rw [hpc, pc_change, h.pc]
  · rw [clients_change, pc_change]
    exact owns_set h.owns hb hbare hactive
  · intro k j hsend
    rw [pc_change] at hsend
    have howns := h.owns
    rw [hsend] at howns
    obtain ⟨reg, hj, hreg, -⟩ := howns
    have hne : j ≠ c := by
      rintro rfl
      exact hbare (Option.some.inj (hb.symm.trans hj) ▸ hreg)
    rw [hclients, List.getElem?_set_ne hne.symm]
    exact h.handed k j hsend

/-- `gbRegister` gives up its client: it is released, and destroyed in the other service. -/
lemma refines_giveUp {status : ℤ} (h : Agrees s t) (hreg : Bare 0 reg)
    (hsending : reg.sending = false) (hpc : t.pc.client = some (k, c)) (hstatus : status ≠ 0) :
    ∃ fs t', Trace.run (Sub.step gConfig) t fs = some t' ∧ Refines (s.giveUp k c reg) t' := by
  have hgone := hreg.gone_destroy hsending
  have hstep : Sub.step gConfig t (.ret status) = some (t.giveUp k c) := by
    rw [Sub.step, Sub.State.ret]
    cases htpc : t.pc with
    | wait => simp [htpc, Sub.Pc.client] at hpc
    | visit j => simp [htpc, Sub.Pc.client] at hpc
    | create j => simp [htpc, Sub.Pc.client] at hpc
    | init j d =>
      simp only [htpc, Sub.Pc.client, Option.some.injEq, Prod.mk.injEq] at hpc
      rw [hpc.1, hpc.2]
      exact if_neg hstatus
    | register j d =>
      simp only [htpc, Sub.Pc.client, Option.some.injEq, Prod.mk.injEq] at hpc
      rw [hpc.1, hpc.2]
      exact if_neg hstatus
    | send j d =>
      simp only [htpc, Sub.Pc.client, Option.some.injEq, Prod.mk.injEq] at hpc
      rw [hpc.1, hpc.2]
      exact if_neg hstatus
  refine exists_run_of_step hstep ⟨?_, rfl, trivial, fun _ _ hsend => by cases hsend⟩
  refine h.set _ rfl rfl h.nodes h.succeeded h.answers ?_ (Or.inr hgone)
  refine ⟨rfl, fun ht => absurd hgone.tsxs ht, fun ht => ?_, iff_of_true hgone.released rfl⟩
  exact absurd ht (by simp [hgone.timer])

lemma refines_visit (h : Refines s t) (hpc : s.pc = .visit k)
    (hstep : s.visit gConfig k = some s') :
    ∃ fs t', Trace.run (Sub.step gConfig) t fs = some t' ∧ Refines s' t' := by
  have htpc : t.pc = .visit k := by rw [h.pc, hpc]; rfl
  have hgoto : ∀ (pc : Pc) (hpc' : Owns s.clients pc) (hsend : ∀ k c, pc ≠ .send k c),
      Sub.step gConfig t .visit = some (t.goto pc.toPhases) →
      ∃ fs t', Trace.run (Sub.step gConfig) t fs = some t' ∧ Refines (s.goto pc) t' := by
    intro pc howns hsend ht
    refine exists_run_of_step ht ⟨?_, rfl, howns, fun k c hc => absurd hc (hsend k c)⟩
    exact ⟨h.agrees.nodes, h.agrees.succeeded, h.agrees.answers, h.agrees.clients,
      h.agrees.sane⟩
  unfold State.visit at hstep
  have hnodes := h.agrees.nodes
  split at hstep
  · next hnode =>
    obtain rfl := Option.some.inj hstep
    refine hgoto .wait trivial (by simp) ?_
    simp [Sub.step, htpc, Sub.State.visit, hnodes, hnode, Pc.toPhases]
  · next node hnode =>
    split at hstep
    · next hreg =>
      obtain rfl := Option.some.inj hstep
      refine hgoto (.visit (k + 1)) trivial (by simp) ?_
      simp [Sub.step, htpc, Sub.State.visit, hnodes, hnode, hreg, Pc.toPhases]
    · next hreg =>
      split at hstep
      · simp at hstep
      · next msg hmsg =>
        obtain rfl := Option.some.inj hstep
        refine hgoto (.create k) trivial (by simp) ?_
        simp [Sub.step, htpc, Sub.State.visit, hnodes, hnode, hreg, hmsg, Pc.toPhases]

lemma refines_create {status : ℤ} (h : Refines s t) (hpc : s.pc = .create k)
    (hstep : step gConfig s (.create status) = some s') :
    ∃ fs t', Trace.run (Sub.step gConfig) t fs = some t' ∧ Refines s' t' := by
  have htpc : t.pc = .create k := by rw [h.pc, hpc]; rfl
  have hlen : s.clients.length = t.clients.length := h.agrees.clients.length_eq
  simp only [step, hpc] at hstep
  split at hstep
  · next hstatus =>
    obtain rfl := Option.some.inj hstep
    have ht : Sub.step gConfig t (.ret 0) = some (t.create k) := by
      simp [Sub.step, Sub.State.ret, htpc]
    refine exists_run_of_step ht ⟨⟨h.agrees.nodes, h.agrees.succeeded, h.agrees.answers, ?_, ?_⟩,
      ?_, ?_, fun _ _ hc => by cases hc⟩
    · refine forall₂_concat h.agrees.clients ⟨rfl, fun ht => absurd rfl ht, fun ht => ?_, ?_⟩
      · exact absurd ht Bool.false_ne_true
      · exact iff_of_false Bool.false_ne_true (by simp)
    · intro b hb
      rcases List.mem_append.1 hb with hb | hb
      · exact h.agrees.sane b hb
      · rw [List.mem_singleton.1 hb]
        exact Or.inl bare_create.active
    · simp [Sub.State.create, Pc.toPhases, hlen]
    · exact ⟨.create, by simp, bare_create, rfl⟩
  · next hstatus =>
    obtain rfl := Option.some.inj hstep
    have ht : Sub.step gConfig t (.ret status) = some (t.goto (.visit (k + 1))) := by
      simp [Sub.step, Sub.State.ret, htpc, hstatus]
    exact exists_run_of_step ht ⟨⟨h.agrees.nodes, h.agrees.succeeded, h.agrees.answers,
      h.agrees.clients, h.agrees.sane⟩, rfl, trivial, fun _ _ hc => by cases hc⟩

/-- The client of the thread moves, and with it the thread. -/
lemma refines_own {pc : Pc} (phase : Phase) (status : ℤ) (h : Refines s t)
    (hb : s.clients[c]? = some ⟨k, reg⟩) {reg' : Registrant} (hreg : Bare 0 reg')
    (hphase : phase ≠ .destroyed)
    (hstep : Sub.step gConfig t (.ret status) =
      some ((t.setPhase k c phase).goto pc.toPhases))
    (howns : Owns (s.clients.set c ⟨k, reg'⟩) pc) (hsend : ∀ j d, pc = .send j d →
      phase = .outstanding ∧ j = k ∧ d = c) :
    ∃ fs t', Trace.run (Sub.step gConfig) t fs = some t' ∧
      Refines ((s.set k c reg').goto pc) t' := by
  obtain ⟨cl, hcl, -⟩ := exists_of_forall₂ h.agrees.clients hb
  refine exists_run_of_step hstep ⟨?_, rfl, howns, ?_⟩
  · refine h.agrees.set _ rfl rfl h.agrees.nodes h.agrees.succeeded h.agrees.answers ?_
      (Or.inl hreg.active)
    refine ⟨rfl, fun ht => absurd hreg.tsxs ht, fun ht => ?_, ?_⟩
    · exact absurd ht (by simp [hreg.timer])
    · exact iff_of_false (by simp [hreg.held.released]) hphase
  · intro j d hc
    obtain ⟨rfl, rfl, rfl⟩ := hsend j d hc
    exact List.getElem?_set_self (List.getElem?_eq_some_iff.1 hcl).1

lemma setPhase_self {phase : Phase} (hc : t.clients[c]? = some ⟨k, phase⟩) :
    t.setPhase k c phase = t := by
  have hset : t.clients.set c ⟨k, phase⟩ = t.clients := by
    obtain ⟨hlt, hget⟩ := List.getElem?_eq_some_iff.1 hc
    rw [← hget, List.set_getElem_self]
  rw [Sub.State.setPhase, hset]

lemma refines_init {status : ℤ} {cseq : ℕ} (h : Refines s t) (hpc : s.pc = .init k c)
    (hstep : step gConfig s (.init status cseq) = some s') :
    ∃ fs t', Trace.run (Sub.step gConfig) t fs = some t' ∧ Refines s' t' := by
  have htpc : t.pc = .init k c := by rw [h.pc, hpc]; rfl
  have howns := h.owns
  rw [hpc] at howns
  obtain ⟨reg, hb, hreg, hsending⟩ := howns
  simp only [step, hpc, hb, Option.map_some] at hstep
  obtain ⟨⟨token, phase⟩, hcl, hm⟩ := exists_of_forall₂ h.agrees.clients hb
  obtain rfl : token = k := hm.token
  split at hstep
  · obtain rfl := Option.some.inj hstep
    have hphase : phase ≠ .destroyed := fun hd =>
      absurd (hm.released.2 hd) (by simp [hreg.held.released])
    refine refines_own phase 0 h hb hreg.init hphase ?_ ?_
      (fun _ _ hc => by cases hc)
    · rw [setPhase_self hcl]
      simp [Sub.step, Sub.State.ret, htpc, Pc.toPhases]
    · refine ⟨_, List.getElem?_set_self (List.getElem?_eq_some_iff.1 hb).1, hreg.init, hsending⟩
  · next hstatus =>
    obtain rfl := Option.some.inj hstep
    exact refines_giveUp h.agrees hreg hsending (by rw [htpc]; rfl) hstatus

lemma refines_register {status : ℤ} (h : Refines s t) (hpc : s.pc = .register k c)
    (hstep : step gConfig s (.register status) = some s') :
    ∃ fs t', Trace.run (Sub.step gConfig) t fs = some t' ∧ Refines s' t' := by
  have htpc : t.pc = .register k c := by rw [h.pc, hpc]; rfl
  have howns := h.owns
  rw [hpc] at howns
  obtain ⟨reg, hb, hreg, hsending⟩ := howns
  have hsending' : (reg.register true status).sending = false :=
    quiet_register.sending.trans hsending
  simp only [step, hpc, hb, Option.map_some] at hstep
  split at hstep
  · next hstatus =>
    obtain rfl := Option.some.inj hstep
    refine refines_own .outstanding 0 h hb hreg.register (by simp) ?_ ?_ ?_
    · simp [Sub.step, Sub.State.ret, htpc, Pc.toPhases]
    · exact ⟨_, List.getElem?_set_self (List.getElem?_eq_some_iff.1 hb).1, hreg.register,
        hsending'⟩
    · intro j d hjd
      obtain ⟨rfl, rfl⟩ := Pc.send.inj hjd
      exact ⟨rfl, rfl, rfl⟩
  · next hstatus =>
    obtain rfl := Option.some.inj hstep
    exact refines_giveUp h.agrees hreg.register hsending' (by rw [htpc]; rfl) hstatus

lemma refines_send {taken : Taken} (h : Refines s t) (hpc : s.pc = .send k c)
    (hstep : step gConfig s (.send taken) = some s') :
    ∃ fs t', Trace.run (Sub.step gConfig) t fs = some t' ∧ Refines s' t' := by
  have htpc : t.pc = .send k c := by rw [h.pc, hpc]; rfl
  have howns := h.owns
  rw [hpc] at howns
  obtain ⟨reg, hb, hreg, hsending⟩ := howns
  obtain ⟨hout, hactive⟩ := hreg.sendCall hsending reg.request taken
  simp only [step, hpc, hb, Option.map_some, Option.some.injEq] at hstep
  obtain ⟨fs, t', hrun, hpc', -, hagrees⟩ :=
    exists_run_change gConfig h.agrees hb (hout.outcome 0) hactive
  rw [setPhase_self (h.handed k c hpc)] at hrun
  refine ⟨fs, t', hrun, hstep ▸ ⟨⟨hagrees.nodes, hagrees.succeeded, hagrees.answers,
    hagrees.clients, hagrees.sane⟩, ?_, ?_, fun _ _ hc => by cases hc⟩⟩
  · rw [hpc', htpc]
    rfl
  · rw [State.goto]
    refine ⟨_, ?_, hactive, fun hstatus => ?_⟩
    · rw [clients_change, List.getElem?_set_self (List.getElem?_eq_some_iff.1 hb).1]
    · cases hout with
      | accepted status => exact absurd status hstatus
      | failed _ _ tsxs timer => exact ⟨hactive.held, hactive.deleteFlag, tsxs, timer⟩

lemma refines_sent (h : Refines s t) {status : ℤ} (hpc : s.pc = .sent k c status)
    (hstep : step gConfig s .sent = some s') :
    ∃ fs t', Trace.run (Sub.step gConfig) t fs = some t' ∧ Refines s' t' := by
  have htpc : t.pc = .send k c := by rw [h.pc, hpc]; rfl
  have howns := h.owns
  rw [hpc] at howns
  obtain ⟨reg, hb, hactive, hfail⟩ := howns
  obtain ⟨hreturn, hsending, htsxs, htimer⟩ := hactive.sendReturn
  obtain ⟨⟨token, phase⟩, hcl, hm⟩ := exists_of_forall₂ h.agrees.clients hb
  obtain rfl : token = k := hm.token
  simp only [step, hpc, hb, Option.map_some] at hstep
  split at hstep
  · next hstatus =>
    obtain rfl := Option.some.inj hstep
    have ht : Sub.step gConfig t (.ret 0) =
        some { t with pc := .visit (token + 1), succeeded := token :: t.succeeded } := by
      simp [Sub.step, Sub.State.ret, htpc]
    refine exists_run_of_step ht ⟨?_, rfl, trivial, fun _ _ hc => by cases hc⟩
    refine h.agrees.set phase rfl ?_ h.agrees.nodes
      (congrArg (List.cons token) h.agrees.succeeded) h.agrees.answers ?_ (Or.inl hreturn)
    · exact (congrArg Sub.State.clients (setPhase_self hcl)).symm
    · refine ⟨rfl, fun ht => hm.pending (htsxs ▸ ht), fun ht => hm.scheduled (htimer ▸ ht), ?_⟩
      rw [show (Binding.mk token reg.sendReturn).regc.released = reg.sendReturn.released from rfl,
        hreturn.held.released, ← hactive.held.released]
      exact hm.released
  · next hstatus =>
    obtain rfl := Option.some.inj hstep
    have hbare := hfail hstatus
    have hbare' : Bare 0 reg.sendReturn :=
      ⟨hreturn.held, hreturn.deleteFlag, htsxs.trans hbare.tsxs, htimer.trans hbare.timer⟩
    exact refines_giveUp h.agrees hbare' hsending (by rw [htpc]; rfl) hstatus

/-- A client with a transaction or a timer was not destroyed. -/
lemma active_of_sane (hsane : Sane b) (h : b.regc.tsxs ≠ [] ∨ b.regc.timer.isSome = true) :
    Active 0 b.regc := by
  refine hsane.resolve_right fun hgone => ?_
  rcases h with h | h
  · exact h hgone.tsxs
  · exact absurd h (by simp [hgone.timer])

lemma refines_answer {i : ℕ} {resp : Response} {reinit register : ℤ} {taken : Taken}
    (h : Refines s t)
    (hstep : step gConfig s (.answer c i resp reinit register taken) = some s') :
    ∃ fs t', Trace.run (Sub.step gConfig) t fs = some t' ∧ Refines s' t' := by
  simp only [step] at hstep
  split at hstep
  · simp at hstep
  next b hb =>
  split at hstep
  · simp at hstep
  next tsx hi =>
  split at hstep
  swap
  · simp at hstep
  obtain rfl := Option.some.inj hstep
  have htsxs : b.regc.tsxs ≠ [] := List.ne_nil_of_mem (List.mem_of_getElem? hi)
  have hactive := active_of_sane (h.agrees.sane b (List.mem_of_getElem? hb)) (Or.inl htsxs)
  have hcalled := (Sound.live hactive.held fun hf =>
    absurd hf (by simp [hactive.deleteFlag])).called hi
  obtain ⟨hout, hactive'⟩ := hcalled.outcome hactive.deleteFlag (hactive.timer htsxs) tsx resp
    reinit register taken
  obtain ⟨fs, t', hrun, hrefines⟩ := refines_change gConfig h hb
    (fun hbare => htsxs hbare.tsxs) hout hactive'
  obtain ⟨⟨token, phase⟩, hcl, hm⟩ := exists_of_forall₂ h.agrees.clients hb
  have hphase : phase = .outstanding := hm.pending htsxs
  have htoken : token = b.token := hm.token
  rw [setPhase_self (by rw [hcl, hphase, htoken])] at hrun
  exact ⟨fs, t', hrun, hrefines⟩

lemma refines_timer {register : ℤ} {taken : Taken} (h : Refines s t)
    (hstep : step gConfig s (.timer c register taken) = some s') :
    ∃ fs t', Trace.run (Sub.step gConfig) t fs = some t' ∧ Refines s' t' := by
  simp only [step] at hstep
  split at hstep
  · simp at hstep
  next b hb =>
  split at hstep
  swap
  · simp at hstep
  next htimer =>
  obtain rfl := Option.some.inj hstep
  have hactive := active_of_sane (h.agrees.sane b (List.mem_of_getElem? hb)) (Or.inr htimer)
  have htsxs : b.regc.tsxs = [] := by
    by_contra hne
    exact absurd htimer (by simp [hactive.timer hne])
  obtain ⟨hout, hactive'⟩ := hactive.outcome htsxs register taken
  obtain ⟨fs, t', hrun, hrefines⟩ := refines_change gConfig h hb
    (fun hbare => absurd htimer (by simp [hbare.timer])) hout hactive'
  obtain ⟨⟨token, phase⟩, hcl, hm⟩ := exists_of_forall₂ h.agrees.clients hb
  have hphase : phase = .scheduled := hm.scheduled htimer
  have htoken : token = b.token := hm.token
  have hrefresh : Sub.step gConfig t (.refresh c) = some (t.setPhase b.token c .outstanding) := by
    rw [Sub.step, hcl, hphase, htoken]
  exact ⟨.refresh c :: fs, t', by rw [Trace.run_cons, hrefresh]; exact hrun, hrefines⟩

/-- Each step of the service is matched. -/
theorem forward : Forward (step gConfig) (Sub.step gConfig) Refines := by
  intro s t e s' h hstep
  cases e with
  | tick =>
    simp only [step] at hstep
    split at hstep
    · next hpc =>
      obtain rfl := Option.some.inj hstep
      have ht : Sub.step gConfig t .tick = some (t.goto (.visit 0)) :=
        if_pos (by rw [h.pc, hpc]; rfl)
      exact exists_run_of_step ht ⟨⟨h.agrees.nodes, h.agrees.succeeded, h.agrees.answers,
        h.agrees.clients, h.agrees.sane⟩, rfl, trivial, fun _ _ hc => by cases hc⟩
    · simp at hstep
  | visit =>
    cases hpc : s.pc with
    | visit k =>
      rw [step, hpc] at hstep
      exact refines_visit h hpc hstep
    | _ => simp [step, hpc] at hstep
  | create status =>
    cases hpc : s.pc with
    | create k => exact refines_create h hpc hstep
    | _ => simp [step, hpc] at hstep
  | init status cseq =>
    cases hpc : s.pc with
    | init k c => exact refines_init h hpc hstep
    | _ => simp [step, hpc] at hstep
  | register status =>
    cases hpc : s.pc with
    | register k c => exact refines_register h hpc hstep
    | _ => simp [step, hpc] at hstep
  | send taken =>
    cases hpc : s.pc with
    | send k c => exact refines_send h hpc hstep
    | _ => simp [step, hpc] at hstep
  | sent =>
    cases hpc : s.pc with
    | sent k c status => exact refines_sent h hpc hstep
    | _ => simp [step, hpc] at hstep
  | answer c i resp reinit register taken => exact refines_answer h hstep
  | timer c register taken => exact refines_timer h hstep

lemma refines_start : Refines (start gConfig) (Sub.start gConfig) :=
  ⟨⟨rfl, rfl, rfl, .nil, fun _ hb => absurd hb List.not_mem_nil⟩, rfl, trivial,
    fun _ _ hc => by cases hc⟩

/-- How many clients of a node are not released. -/
def State.live (s : State) (k : ℕ) : ℕ :=
  s.clients.countP fun b => b.token == k && !b.regc.released

lemma Agrees.live (h : Agrees s t) (k : ℕ) : s.live k = t.count Phase.live k := by
  refine countP_eq_of_forall₂ h.clients fun b cl hm => ?_
  have hdead : b.regc.released = !cl.phase.live := by
    rw [Bool.eq_iff_iff, hm.released]
    simp [Phase.live]
  rw [hm.token, hdead, Bool.not_not]

/-- What is the same in the service with the phases. -/
structure Observed (s : State) (t : Sub.State) : Prop where
  nodes : t.nodes = s.nodes
  pc : t.pc = s.pc.toPhases
  succeeded : t.succeeded = s.succeeded
  answers : ok t.answers = ok s.answers
  live : ∀ k, t.count Phase.live k = s.live k

lemma Refines.observed (h : Refines s t) : Observed s t :=
  ⟨h.agrees.nodes, h.pc, h.agrees.succeeded, h.agrees.answers, fun k => (h.agrees.live k).symm⟩

/-- Every run of the service with its clients in full has one of the service with the phases
beside it, after which the nodes, the thread, what `gbRegister` returned, the calls of `client_cb`
with code 200 and the number of clients of each node are the same.  None of the clients is used
after its release, and none waits to be released. -/
theorem refines_of_run {es : List Event} (h : Trace.run (step gConfig) (start gConfig) es = some s) :
    (∃ fs t, Trace.run (Sub.step gConfig) (Sub.start gConfig) fs = some t ∧ Observed s t) ∧
    ∀ b ∈ s.clients, b.regc.fault = false ∧
      (b.regc.released = true ∨ b.regc.regc.deleteFlag = false) := by
  obtain ⟨fs, t, hrun, hR⟩ := forward.exists_run refines_start h
  refine ⟨⟨fs, t, hrun, hR.observed⟩, fun b hb => ?_⟩
  rcases hR.agrees.sane b hb with hactive | hgone
  · exact ⟨hactive.held.fault, Or.inr hactive.deleteFlag⟩
  · exact ⟨hgone.fault, Or.inl hgone.released⟩

/-- `RegisterProc` runs once for one node, and its request is sent. -/
def pass : List Event :=
  [.tick, .visit, .create 0, .init 0 7, .register 0, .send .accepted, .sent, .visit]

/-- The registration is granted for some time; the refresh finds no transport. -/
def refreshed (expires : PjInt32) : List Event :=
  pass ++ [.answer 0 0 ⟨200, [], some expires, none⟩ 0 0 .accepted,
    .timer 0 0 (.transportError ⟨1, by decide⟩)]

theorem refines_refreshed : ∃ s,
    Trace.run (step oneNode) (start oneNode) (refreshed ⟨600, by decide⟩) = some s ∧
    (∃ fs t, Trace.run (Sub.step oneNode) (Sub.start oneNode) fs = some t ∧ Observed s t) ∧
    ∀ b ∈ s.clients, b.regc.fault = false ∧
      (b.regc.released = true ∨ b.regc.regc.deleteFlag = false) :=
  ⟨_, rfl, refines_of_run
    (rfl : Trace.run (step oneNode) (start oneNode) (refreshed ⟨600, by decide⟩) = _)⟩

/-- In every run a node has exactly as many clients in memory as calls of `gbRegister` succeeded
for it, and one more while a call is under way: none of them is ever released. -/
theorem live_eq_of_run {es : List Event} (k : ℕ)
    (h : Trace.run (step gConfig) (start gConfig) es = some s) :
    s.live k = s.succeeded.count k + s.pc.toPhases.busy k := by
  obtain ⟨fs, t, hrun, hR⟩ := forward.exists_run refines_start h
  have hstart : Accounted (Sub.start gConfig) := ⟨fun _ => rfl, nofun⟩
  have ht : Accounted t := Trace.invariant hstart
    (fun _ _ _ hs h => accounted_step hs (goes_of_step h)) hrun
  rw [hR.agrees.live, ht.live, hR.agrees.succeeded, hR.pc]

/-- Every answer is lost, and each pass makes a client. -/
theorem live_twoPasses : ∃ s, Trace.run (step oneNode) (start oneNode) (pass ++ pass) = some s ∧
    s.live 0 = s.succeeded.count 0 + s.pc.toPhases.busy 0 :=
  ⟨_, rfl, live_eq_of_run 0
    (rfl : Trace.run (step oneNode) (start oneNode) (pass ++ pass) = _)⟩

end Sub.Clients
