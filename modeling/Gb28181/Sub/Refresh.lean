import Gb28181.Sip.KeepAlive
import Gb28181.Sub.Refinement

/-!
# Registrations are kept alive

After each positive answer a client schedules its next REGISTER, unless the expiry of its node is
not positive.  Whether that comes in time depends on this expiry alone.
-/

namespace Sub.Clients

open Lib Conf Sip Sip.Registrant

/-! ### What holds of every client -/

/-- The expiry that the clients of the `k`-th node are initialised with. -/
def expiresOf (gConfig : SipLocalConfig SupNodeInfo) (k : ℕ) : ℕ := (start gConfig).expires k

/-- The client that `gbRegister` hands to `pjsip_regc_send`. -/
def registered (gConfig : SipLocalConfig SupNodeInfo) (k cseq : ℕ) : Registrant :=
  (create.init (expiresOf gConfig k) cseq).register true 0

/-- A property of the clients of a node that they have once their first request was sent, and that
everything the service does with them keeps, if the events are in `C`. -/
structure Keeps (gConfig : SipLocalConfig SupNodeInfo) (C : Event → Prop)
    (Good : ℕ → Registrant → Prop) : Prop where
  send : ∀ k cseq taken, C (.send taken) → Good k ((registered gConfig k cseq).sendCall
    (registered gConfig k cseq).request taken false).1
  sent : ∀ k r, Good k r → Active 0 r → Good k r.sendReturn
  answer : ∀ k r c i tsx resp reinit register taken, Good k r → Active 0 r →
    r.tsxs[i]? = some tsx → C (.answer c i resp reinit register taken) →
    Good k ({ r with tsxs := r.tsxs.eraseIdx i }.tsxCallback tsx resp reinit register taken false).1
  timer : ∀ k r c register taken, Good k r → Active 0 r → r.timer.isSome = true →
    C (.timer c register taken) → Good k (r.refreshTimerCb register taken false).1

/-- The node and the client of the call of `gbRegister` that has not sent its request yet. -/
def Pc.owner : Pc → Option (ℕ × ℕ)
  | .init k c | .register k c | .send k c => some (k, c)
  | _ => none

/-- That client. -/
def Made (gConfig : SipLocalConfig SupNodeInfo) (clients : List Binding) : Pc → Prop
  | .init k c => clients[c]? = some ⟨k, .create⟩
  | .register k c => ∃ cseq, clients[c]? = some ⟨k, create.init (expiresOf gConfig k) cseq⟩
  | .send k c => ∃ cseq, clients[c]? = some ⟨k, registered gConfig k cseq⟩
  | _ => True

/-- What `Keeps` keeps along a run: a client that is not released is in the hands of `gbRegister`,
or has the property. -/
structure Kept (gConfig : SipLocalConfig SupNodeInfo) (Good : ℕ → Registrant → Prop)
    (s : State) : Prop where
  expires : ∀ k, s.expires k = expiresOf gConfig k
  made : Made gConfig s.clients s.pc
  good : ∀ c b, s.clients[c]? = some b →
    b.regc.released = true ∨ s.pc.owner = some (b.token, c) ∨ Good b.token b.regc

variable {gConfig : SipLocalConfig SupNodeInfo} {C : Event → Prop}
  {Good : ℕ → Registrant → Prop} {s s' : State} {e : Event} {k c : ℕ} {b : Binding}
  {reg : Registrant} {pc : Pc}

/-- A client in the hands of `gbRegister` has neither a transaction nor a timer. -/
lemma bare_of_made (h : Made gConfig s.clients s.pc) (hpc : s.pc.owner = some (k, c)) :
    ∃ r, s.clients[c]? = some ⟨k, r⟩ ∧ Bare 0 r ∧ r.requests = [] := by
  cases hs : s.pc with
  | init j d =>
    obtain ⟨rfl, rfl⟩ : j = k ∧ d = c := by simpa [hs, Pc.owner] using hpc
    rw [hs] at h
    exact ⟨_, h, bare_create, rfl⟩
  | register j d =>
    obtain ⟨rfl, rfl⟩ : j = k ∧ d = c := by simpa [hs, Pc.owner] using hpc
    rw [hs] at h
    obtain ⟨cseq, hb⟩ := h
    exact ⟨_, hb, bare_create.init, rfl⟩
  | send j d =>
    obtain ⟨rfl, rfl⟩ : j = k ∧ d = c := by simpa [hs, Pc.owner] using hpc
    rw [hs] at h
    obtain ⟨cseq, hb⟩ := h
    exact ⟨_, hb, bare_create.init.register, quiet_register.requests⟩
  | _ => simp [hs, Pc.owner] at hpc

/-- The thread has one client in its hands. -/
lemma owner_unique (h : s.pc.owner = some (k, c)) (j d : ℕ) (hj : s.pc.owner = some (j, d)) :
    d = c := by
  rw [h] at hj
  exact (Prod.mk.inj (Option.some.inj hj)).2.symm

/-- The client that the thread is at moves, and the thread with it. -/
lemma Kept.own (h : Kept gConfig Good s) (hclients : s'.clients = s.clients.set c ⟨k, reg⟩)
    (hexpires : ∀ k, s'.expires k = s.expires k)
    (hfrom : ∀ j d, s.pc.owner = some (j, d) → d = c) (hmade : Made gConfig s'.clients s'.pc)
    (hgood : reg.released = true ∨ s'.pc.owner = some (k, c) ∨ Good k reg) :
    Kept gConfig Good s' where
  expires := fun k => (hexpires k).trans (h.expires k)
  made := hmade
  good := by
    intro d b hb
    rw [hclients] at hb
    rcases getElem?_set_cases hb with ⟨rfl, rfl⟩ | ⟨hne, hb⟩
    · exact hgood
    · refine (h.good d b hb).imp_right fun hr => Or.inr (hr.resolve_left fun hpc => ?_)
      exact hne (hfrom _ _ hpc)

/-- The thread alone moves. -/
lemma Kept.goto (h : Kept gConfig Good s) (hfrom : s.pc.owner = none) (hto : pc.owner = none) :
    Kept gConfig Good (s.goto pc) where
  expires := h.expires
  made := by
    cases pc with
    | init j d => simp [Pc.owner] at hto
    | register j d => simp [Pc.owner] at hto
    | send j d => simp [Pc.owner] at hto
    | _ => trivial
  good := fun d b hb => (h.good d b hb).imp_right fun hr =>
    Or.inr (hr.resolve_left (by simp [hfrom]))

/-- `client_cb` does not touch the expiry of a node. -/
lemma expires_call {code : ℤ} {j : ℕ} : (s.call k code).expires j = s.expires j := by
  have hmap : (clientCb s.nodes k code)[j]?.map SupDomainInfo.expires =
      s.nodes[j]?.map SupDomainInfo.expires := by
    rw [clientCb]
    split
    · rw [List.getElem?_modify]
      cases s.nodes[j]? with
      | none => rfl
      | some node => by_cases hkj : k = j <;> simp [hkj]
    · rfl
  rw [State.expires, State.call, hmap]
  rfl

lemma expires_change {r : Registrant × List ℤ} {j : ℕ} :
    (s.change k c r).expires j = s.expires j :=
  change_of_call (fun s => s.expires j) fun _ _ => expires_call

/-- A client with something outstanding or scheduled is not in the hands of `gbRegister`. -/
lemma Kept.not_owner (h : Kept gConfig Good s) (hb : s.clients[c]? = some b)
    (hbare : ¬ Bare 0 b.regc) : ∀ j, s.pc.owner ≠ some (j, c) := by
  intro j hpc
  obtain ⟨r, hb', hr, -⟩ := bare_of_made h.made hpc
  exact hbare (Option.some.inj (hb.symm.trans hb') ▸ hr)

lemma Kept.good_of_active (h : Kept gConfig Good s) (hb : s.clients[c]? = some b)
    (hbare : ¬ Bare 0 b.regc) (hactive : Active 0 b.regc) : Good b.token b.regc :=
  ((h.good c b hb).resolve_left (by simp [hactive.held.released])).resolve_left
    (h.not_owner hb hbare _)

/-- An answer or a refresh. -/
lemma Kept.change {r : Registrant × List ℤ} (h : Kept gConfig Good s)
    (hb : s.clients[c]? = some b) (hbare : ¬ Bare 0 b.regc) (hgood : Good b.token r.1) :
    Kept gConfig Good (s.change b.token c r) where
  expires := fun k => expires_change.trans (h.expires k)
  made := by
    have hne : ∀ j d, s.pc.owner = some (j, d) → d ≠ c := by
      rintro j d hpc rfl
      exact h.not_owner hb hbare j hpc
    have hget : ∀ j d, s.pc.owner = some (j, d) →
        (s.change b.token c r).clients[d]? = s.clients[d]? := by
      intro j d hpc
      rw [clients_change, List.getElem?_set_ne (hne j d hpc).symm]
    have hmade := h.made
    rw [pc_change]
    cases hs : s.pc with
    | init j d =>
      rw [hs] at hmade
      exact (hget j d (by rw [hs]; rfl)).trans hmade
    | register j d =>
      rw [hs] at hmade
      exact hmade.imp fun cseq hm => (hget j d (by rw [hs]; rfl)).trans hm
    | send j d =>
      rw [hs] at hmade
      exact hmade.imp fun cseq hm => (hget j d (by rw [hs]; rfl)).trans hm
    | _ => trivial
  good := by
    intro d b' hb'
    rw [clients_change] at hb'
    rw [pc_change]
    rcases getElem?_set_cases hb' with ⟨rfl, rfl⟩ | ⟨-, hb'⟩
    · exact Or.inr (Or.inr hgood)
    · exact h.good d b' hb'

/-! ### One event -/

lemma kept_visit (h : Kept gConfig Good s) (hpc : s.pc = .visit k)
    (hstep : s.visit gConfig k = some s') : Kept gConfig Good s' := by
  have howner : s.pc.owner = none := by rw [hpc]; rfl
  rw [State.visit] at hstep
  split at hstep
  · exact Option.some.inj hstep ▸ h.goto howner rfl
  · split at hstep
    · exact Option.some.inj hstep ▸ h.goto howner rfl
    · split at hstep
      · simp at hstep
      · exact Option.some.inj hstep ▸ h.goto howner rfl

lemma kept_create {status : ℤ} (h : Kept gConfig Good s) (hpc : s.pc = .create k)
    (hstep : step gConfig s (.create status) = some s') : Kept gConfig Good s' := by
  have howner : s.pc.owner = none := by rw [hpc]; rfl
  simp only [step, hpc] at hstep
  split at hstep
  · obtain rfl := Option.some.inj hstep
    refine ⟨h.expires, by simp [Made], fun d b hb => ?_⟩
    rcases getElem?_concat_cases hb with hb | ⟨rfl, rfl⟩
    · exact (h.good d b hb).imp_right fun hr =>
        Or.inr (hr.resolve_left (by simp [howner]))
    · -- the new client is in the hands of `gbRegister`
      exact Or.inr (Or.inl rfl)
  · exact Option.some.inj hstep ▸ h.goto howner rfl

lemma kept_init {status : ℤ} {cseq : ℕ} (h : Kept gConfig Good s) (hpc : s.pc = .init k c)
    (hstep : step gConfig s (.init status cseq) = some s') : Kept gConfig Good s' := by
  have hfrom : ∀ j d, s.pc.owner = some (j, d) → d = c := owner_unique (by rw [hpc]; rfl)
  have hmade := h.made
  rw [hpc] at hmade
  have hb : s.clients[c]? = some ⟨k, .create⟩ := hmade
  have hlt := (List.getElem?_eq_some_iff.1 hb).1
  simp only [step, hpc, hb, Option.map_some] at hstep
  split at hstep
  · obtain rfl := Option.some.inj hstep
    refine h.own rfl (fun _ => rfl) hfrom ⟨cseq, ?_⟩ (Or.inr (Or.inl rfl))
    rw [← h.expires k]
    exact List.getElem?_set_self hlt
  · -- `pjsip_regc_init` has failed, and the client is destroyed
    obtain rfl := Option.some.inj hstep
    exact h.own rfl (fun _ => rfl) hfrom trivial (Or.inl (bare_create.gone_destroy rfl).released)

lemma kept_register {status : ℤ} (h : Kept gConfig Good s) (hpc : s.pc = .register k c)
    (hstep : step gConfig s (.register status) = some s') : Kept gConfig Good s' := by
  have hfrom : ∀ j d, s.pc.owner = some (j, d) → d = c := owner_unique (by rw [hpc]; rfl)
  have hmade := h.made
  rw [hpc] at hmade
  obtain ⟨cseq, hb⟩ := hmade
  have hlt := (List.getElem?_eq_some_iff.1 hb).1
  simp only [step, hpc, hb, Option.map_some] at hstep
  split at hstep
  · next hstatus =>
    obtain rfl := Option.some.inj hstep
    refine h.own rfl (fun _ => rfl) hfrom ⟨cseq, ?_⟩ (Or.inr (Or.inl rfl))
    rw [hstatus]
    exact List.getElem?_set_self hlt
  · -- `pjsip_regc_register` has failed, and the client is destroyed
    obtain rfl := Option.some.inj hstep
    have hsending : ((create.init (expiresOf gConfig k) cseq).register true status).sending =
        false := quiet_register.sending
    exact h.own rfl (fun _ => rfl) hfrom trivial
      (Or.inl (bare_create.init.register.gone_destroy hsending).released)

/-- The first request is sent: from here on the client has the property. -/
lemma kept_send {taken : Taken} (hk : Keeps gConfig C Good) (h : Kept gConfig Good s)
    (hC : C (.send taken)) (hpc : s.pc = .send k c)
    (hstep : step gConfig s (.send taken) = some s') : Kept gConfig Good s' := by
  have hfrom : ∀ j d, s.pc.owner = some (j, d) → d = c := owner_unique (by rw [hpc]; rfl)
  have hmade := h.made
  rw [hpc] at hmade
  obtain ⟨cseq, hb⟩ := hmade
  simp only [step, hpc, hb, Option.map_some, Option.some.injEq] at hstep
  subst hstep
  exact h.own clients_change (fun _ => expires_change) hfrom trivial
    (Or.inr (Or.inr (hk.send k cseq taken hC)))

lemma kept_sent {t : Sub.State} {status : ℤ} (hk : Keeps gConfig C Good)
    (h : Kept gConfig Good s) (hR : Refines s t) (hpc : s.pc = .sent k c status)
    (hstep : step gConfig s .sent = some s') : Kept gConfig Good s' := by
  have howner : ∀ j, s.pc.owner ≠ some j := by simp [hpc, Pc.owner]
  have hfrom : ∀ j d, s.pc.owner = some (j, d) → d = c := fun j d hj => absurd hj (howner _)
  have howns := hR.owns
  rw [hpc] at howns
  obtain ⟨reg, hb, hactive, hfail⟩ := howns
  -- the request was sent, so that the client is neither released nor in hand
  have hgood : Good k reg := ((h.good c _ hb).resolve_left
    (by simp [hactive.held.released])).resolve_left (howner _)
  obtain ⟨hreturn, hsending, htsxs, htimer⟩ := hactive.sendReturn
  simp only [step, hpc, hb, Option.map_some] at hstep
  split at hstep
  · obtain rfl := Option.some.inj hstep
    exact h.own rfl (fun _ => rfl) hfrom trivial (Or.inr (Or.inr (hk.sent k reg hgood hactive)))
  · next hstatus =>
    -- a request that was not taken leaves nothing behind that would keep the client
    obtain rfl := Option.some.inj hstep
    have hbare : Bare 0 reg.sendReturn := ⟨hreturn.held, hreturn.deleteFlag,
      htsxs.trans (hfail hstatus).tsxs, htimer.trans (hfail hstatus).timer⟩
    exact h.own rfl (fun _ => rfl) hfrom trivial (Or.inl (hbare.gone_destroy hsending).released)

lemma kept_answer {t : Sub.State} {i : ℕ} {resp : Response} {reinit register : ℤ} {taken : Taken}
    (hk : Keeps gConfig C Good) (h : Kept gConfig Good s) (hR : Refines s t)
    (hC : C (.answer c i resp reinit register taken))
    (hstep : step gConfig s (.answer c i resp reinit register taken) = some s') :
    Kept gConfig Good s' := by
  simp only [step] at hstep
  split at hstep
  · simp at hstep
  next b hb =>
  split at hstep
  · simp at hstep
  next tsx hi =>
  split at hstep
  swap
  · simp at hstep
  obtain rfl := Option.some.inj hstep
  have htsxs : b.regc.tsxs ≠ [] := List.ne_nil_of_mem (List.mem_of_getElem? hi)
  have hactive := active_of_sane (hR.agrees.sane b (List.mem_of_getElem? hb)) (Or.inl htsxs)
  have hbare : ¬ Bare 0 b.regc := fun hbare => htsxs hbare.tsxs
  exact h.change hb hbare
    (hk.answer _ _ _ _ _ _ _ _ _ (h.good_of_active hb hbare hactive) hactive hi hC)

lemma kept_timer {t : Sub.State} {register : ℤ} {taken : Taken} (hk : Keeps gConfig C Good)
    (h : Kept gConfig Good s) (hR : Refines s t) (hC : C (.timer c register taken))
    (hstep : step gConfig s (.timer c register taken) = some s') : Kept gConfig Good s' := by
  simp only [step] at hstep
  split at hstep
  · simp at hstep
  next b hb =>
  split at hstep
  swap
  · simp at hstep
  next htimer =>
  obtain rfl := Option.some.inj hstep
  have hactive := active_of_sane (hR.agrees.sane b (List.mem_of_getElem? hb)) (Or.inr htimer)
  have hbare : ¬ Bare 0 b.regc := fun hbare => absurd htimer (by simp [hbare.timer])
  exact h.change hb hbare
    (hk.timer _ _ _ _ _ (h.good_of_active hb hbare hactive) hactive htimer hC)

lemma kept_step {t : Sub.State} (hk : Keeps gConfig C Good) (h : Kept gConfig Good s)
    (hR : Refines s t) (hC : C e)
    (hstep : step gConfig s e = some s') : Kept gConfig Good s' := by
  cases e with
  | tick =>
    simp only [step] at hstep
    split at hstep
    · next hpc =>
      obtain rfl := Option.some.inj hstep
      exact h.goto (by rw [hpc]; rfl) rfl
    · simp at hstep
  | visit =>
    cases hpc : s.pc with
    | visit k => exact kept_visit h hpc (by simpa only [step, hpc] using hstep)
    | _ => simp [step, hpc] at hstep
  | create status =>
    cases hpc : s.pc with
    | create k => exact kept_create h hpc hstep
    | _ => simp [step, hpc] at hstep
  | init status cseq =>
    cases hpc : s.pc with
    | init k c => exact kept_init h hpc hstep
    | _ => simp [step, hpc] at hstep
  | register status =>
    cases hpc : s.pc with
    | register k c => exact kept_register h hpc hstep
    | _ => simp [step, hpc] at hstep
  | send taken =>
    cases hpc : s.pc with
    | send k c => exact kept_send hk h hC hpc hstep
    | _ => simp [step, hpc] at hstep
  | sent =>
    cases hpc : s.pc with
    | sent k c status => exact kept_sent hk h hR hpc hstep
    | _ => simp [step, hpc] at hstep
  | answer c i resp reinit register taken => exact kept_answer hk h hR hC hstep
  | timer c register taken => exact kept_timer hk h hR hC hstep

/-- The rule: what is kept holds of every client after every run with such events. -/
theorem kept_of_run {es : List Event} (hk : Keeps gConfig C Good)
    (hC : ∀ e ∈ es, C e)
    (h : Trace.run (step gConfig) (start gConfig) es = some s) :
    Kept gConfig Good s ∧ ∃ t, Refines s t := by
  have hall : Trace.Always (step gConfig) (fun s => Kept gConfig Good s ∧ ∃ t, Refines s t)
      (start gConfig) es := by
    refine Trace.always_of_eachStep
      (C := fun _ e => C e) ?_ ?_ ?_
    · have hstart : Kept gConfig Good (start gConfig) :=
        ⟨fun _ => rfl, trivial, fun _ _ hb => by simp [start] at hb⟩
      exact ⟨hstart, _, refines_start⟩
    · rintro s e s' ⟨hs, t, hR⟩ he hstep
      obtain ⟨fs, t', -, hR'⟩ := forward s t e s' hR hstep
      exact ⟨kept_step hk hs hR he hstep, t', hR'⟩
    · intro pre e hpre _ _ _ _
      exact hC e (hpre.subset (List.mem_append_right _ (List.mem_singleton.2 rfl)))
  exact hall es List.prefix_rfl s h

/-! ### The time of the next refresh -/

lemma ready_registered {cseq : ℕ} : Ready (registered gConfig k cseq) :=
  have hregister : Steady none (create.init (expiresOf gConfig k) cseq)
      (registered gConfig k cseq) := steady_register
  hregister.ready ready_init

lemma bare_registered {cseq : ℕ} : Bare 0 (registered gConfig k cseq) := bare_create.init.register

lemma sending_registered {cseq : ℕ} : (registered gConfig k cseq).sending = false :=
  quiet_register.sending

/-- The transaction that is answered, as the callback finds the client. -/
lemma called_of_active {i : ℕ} {tsx : TxData} (h : Active 0 reg)
    (hi : reg.tsxs[i]? = some tsx) : Called 0 { reg with tsxs := reg.tsxs.eraseIdx i } :=
  (Sound.live h.held fun hf => absurd hf (by simp [h.deleteFlag])).called hi

lemma timer_of_active {i : ℕ} {tsx : TxData} (h : Active 0 reg)
    (hi : reg.tsxs[i]? = some tsx) : reg.timer = none :=
  h.timer (List.ne_nil_of_mem (List.mem_of_getElem? hi))

/-- The client is ready while it waits for an answer. -/
lemma ready_of_paced {i : ℕ} {tsx : TxData} (h : Paced reg) (hi : reg.tsxs[i]? = some tsx) :
    Ready { reg with tsxs := reg.tsxs.eraseIdx i } :=
  have hr := h.ready (Or.inl (List.ne_nil_of_mem (List.mem_of_getElem? hi)))
  ⟨hr.margin, hr.expiresHdr, hr.fresh⟩

/-- Whatever the registrar answers, every client stays paced. -/
lemma keeps_paced : Keeps gConfig (fun _ => True) fun _ r => Paced r where
  send := fun _ _ _ _ => (steady_sendCall.ready ready_registered).paced
  sent := fun _ _ hs hactive => hs.sendReturn hactive
  answer := by
    intro _ r _ i tsx resp reinit register taken hs hactive hi _
    have htimer : r.timer = none := timer_of_active hactive hi
    exact ((called_of_active hactive hi).refresh hactive.deleteFlag htimer (ready_of_paced hs hi)
      tsx resp reinit register taken).1
  timer := fun _ _ _ _ _ hs _ ht _ => (steady_refreshTimerCb.ready (hs.ready (Or.inr ht))).paced

/-- In every run, whenever an answer makes a client schedule a refresh, the refresh comes before
the registration that was granted expires if and only if that lasts six seconds at least. -/
theorem refresh_lt_iff_of_run {es : List Event} {i : ℕ} {resp : Response} {reinit register d : ℤ}
    {taken : Taken} {b' : Binding} (h : Trace.run (step gConfig) (start gConfig) es = some s)
    (hstep : step gConfig s (.answer c i resp reinit register taken) = some s')
    (hb : s.clients[c]? = some b) (hb' : s'.clients[c]? = some b')
    (hd : b'.regc.timer = some d) :
    0 < b.regc.regc.responseExpiration resp ∧
      (d < b.regc.regc.responseExpiration resp ↔ 6 ≤ b.regc.regc.responseExpiration resp) := by
  obtain ⟨hkept, t, hR⟩ := kept_of_run keeps_paced (fun _ _ => trivial) h
  simp only [step, hb] at hstep
  split at hstep
  · simp at hstep
  next tsx hi =>
  split at hstep
  swap
  · simp at hstep
  obtain rfl := Option.some.inj hstep
  rw [clients_change, List.getElem?_set_self (List.getElem?_eq_some_iff.1 hb).1] at hb'
  obtain rfl := Option.some.inj hb'
  have htsxs : b.regc.tsxs ≠ [] := List.ne_nil_of_mem (List.mem_of_getElem? hi)
  have hactive := active_of_sane (hR.agrees.sane b (List.mem_of_getElem? hb)) (Or.inl htsxs)
  have hs : Paced b.regc := hkept.good_of_active hb (fun hbare => htsxs hbare.tsxs) hactive
  have htimer : b.regc.timer = none := timer_of_active hactive hi
  exact ((called_of_active hactive hi).refresh hactive.deleteFlag htimer (ready_of_paced hs hi) tsx
    resp reinit register taken).2 d hd

/-- A registration that is granted for three seconds. -/
def threeSeconds : Response := ⟨200, [], some ⟨3, by decide⟩, none⟩

/-- The refresh of such a registration comes after more than a hundred years. -/
theorem refresh_lt_iff_threeSeconds : ∃ s s' b b',
    Trace.run (step oneNode) (start oneNode) pass = some s ∧
    step oneNode s (.answer 0 0 threeSeconds 0 0 .accepted) = some s' ∧
    s.clients[0]? = some b ∧ s'.clients[0]? = some b' ∧ b'.regc.timer = some 4294967294 ∧
    0 < b.regc.regc.responseExpiration threeSeconds ∧
      (4294967294 < b.regc.regc.responseExpiration threeSeconds ↔
        6 ≤ b.regc.regc.responseExpiration threeSeconds) := by
  refine ⟨_, _, _, _, rfl, rfl, rfl, rfl, rfl, ?_⟩
  apply refresh_lt_iff_of_run (rfl : Trace.run (step oneNode) (start oneNode) pass = _)
    (rfl : step oneNode _ (.answer 0 0 threeSeconds 0 0 .accepted) = _) rfl
  · rfl
  · rfl

/-! ### A registrar that tells no expiry -/

/-- The Expires header of the clients of a node. -/
def hdrOf (gConfig : SipLocalConfig SupNodeInfo) (k : ℕ) : Option ℤ :=
  setExpiresHdr expirationNotSpecified (expiresOf gConfig k)

/-- What a node takes as granted that is configured with this expiry. -/
def grantedTo (expires : ℤ) : ℤ := if expires = -1 then 3600 else expires

/-- No answer tells an expiration. -/
def Event.Plain : Event → Prop
  | .answer _ _ resp _ _ _ => resp.Plain
  | _ => True

/-- Besides, all answers are positive, and the stack takes what is sent. -/
def Event.Positive : Event → Prop
  | .send taken => taken = .accepted
  | .answer _ _ resp _ _ _ => resp.Plain ∧ resp.code / 100 = 2
  | .timer _ status taken => status = 0 ∧ taken = .accepted
  | _ => True

variable {node : SupNodeInfo}

lemma Event.Positive.plain (h : e.Positive) : e.Plain := by
  cases e with
  | answer c i resp reinit register taken => exact h.1
  | _ => trivial

lemma granted_hdrOf (hnode : gConfig.nodeInfoList[k]? = some node) (h32 : IsInt32 node.expires) :
    granted (hdrOf gConfig k) = grantedTo node.expires := by
  have hexpires : expiresOf gConfig k = toUInt32 node.expires := by
    simp [expiresOf, State.expires, start, hnode, infoOf]
  rw [hdrOf, hexpires, setExpiresHdr_toUInt32 h32, granted, grantedTo]
  split <;> rfl

lemma carries_registered {cseq : ℕ} :
    Carries (hdrOf gConfig k) (registered gConfig k cseq) where
  expiresHdr := quiet_register.expiresHdr
  requests := by
    rw [registered, quiet_register.requests]
    exact fun q hq => absurd hq List.not_mem_nil
  tsxs := by
    rw [bare_registered.tsxs]
    exact fun q hq => absurd hq List.not_mem_nil

/-- The client as the callback finds it still carries the header. -/
lemma carries_erase {hdr : Option ℤ} {i : ℕ} (h : Carries hdr reg) :
    Carries hdr { reg with tsxs := reg.tsxs.eraseIdx i } :=
  ⟨h.expiresHdr, h.requests, fun q hq => h.tsxs q (List.eraseIdx_subset hq)⟩

lemma timer_sendCall {cseq : ℕ} {taken : Taken} : ((registered gConfig k cseq).sendCall
    (registered gConfig k cseq).request taken false).1.timer = none :=
  (bare_registered.sendCall sending_registered _ taken).1.timer_eq

/-- A refresh schedules nothing. -/
lemma timer_refreshTimerCb {register : ℤ} {taken : Taken} (h : Active 0 reg)
    (htsxs : reg.tsxs = []) : (reg.refreshTimerCb register taken false).1.timer = none := by
  obtain ⟨hout, -⟩ := h.outcome htsxs register taken
  cases hout with
  | silent calls timer => exact timer
  | called code rest calls again tsxs timer =>
    cases ht : (reg.refreshTimerCb register taken false).1.timer with
    | none => rfl
    | some d =>
      obtain ⟨rfl, hcode⟩ := timer (by rw [ht]; rfl)
      exact absurd hcode (by decide)

/-- A client whose refresh is due waits for no answer. -/
lemma tsxs_of_timer (h : Active 0 reg) (htimer : reg.timer.isSome = true) : reg.tsxs = [] := by
  by_contra htsxs
  exact absurd htimer (by simp [h.timer htsxs])

/-- As long as the answers tell no expiration, the refreshes that are scheduled come in time if the
configured expiry is six seconds at least. -/
lemma keeps_lasting : Keeps gConfig Event.Plain fun k r => Lasting (hdrOf gConfig k) r where
  send := by
    intro k cseq taken _
    have hhdr : (registered gConfig k cseq).request.expires = hdrOf gConfig k := rfl
    have hsteady : Steady (hdrOf gConfig k) (registered gConfig k cseq) ((registered gConfig k
        cseq).sendCall (registered gConfig k cseq).request taken false).1 := by
      rw [← hhdr]
      exact steady_sendCall
    exact (hsteady.ready ready_registered).lasting (carries_registered.steady hsteady)
      timer_sendCall
  sent := by
    intro k r hs hactive
    obtain ⟨-, -, -, htimer⟩ := hactive.sendReturn
    exact ⟨hs.paced.sendReturn hactive, hs.carries.steady steady_sendReturn,
      fun d hd => hs.timer d (htimer ▸ hd)⟩
  answer := by
    intro k r c i tsx resp reinit register taken hs hactive hi hplain
    have htimer : r.timer = none := timer_of_active hactive hi
    exact (called_of_active hactive hi).lasting hactive.deleteFlag htimer
      (ready_of_paced hs.paced hi) (carries_erase hs.carries)
      (hs.carries.tsxs tsx (List.mem_of_getElem? hi)) hplain
  timer := by
    intro k r c register taken hs hactive htimer _
    have hsteady : Steady (hdrOf gConfig k) r (r.refreshTimerCb register taken false).1 := by
      rw [← hs.carries.expiresHdr]
      exact steady_refreshTimerCb
    exact (hsteady.ready (hs.paced.ready (Or.inr htimer))).lasting (hs.carries.steady hsteady)
      (timer_refreshTimerCb hactive (tsxs_of_timer hactive htimer))

/-- If besides all answers are positive, the clients go on. -/
lemma keeps_alive : Keeps gConfig Event.Positive fun k r =>
    Lasting (hdrOf gConfig k) r ∧ Alive (hdrOf gConfig k) r where
  send := by
    intro k cseq taken hpos
    obtain rfl : taken = .accepted := hpos
    refine ⟨keeps_lasting.send k cseq _ trivial, ?_⟩
    have halive : Alive (hdrOf gConfig k) ((registered gConfig k cseq).sendBegin
        (registered gConfig k cseq).request .accepted false).1 := alive_sendBegin rfl rfl
    rw [Registrant.sendCall, if_neg (by rw [bare_registered.hasTsx]; simp)]
    exact halive.congr rfl rfl rfl rfl
  sent := by
    intro k r hs hactive
    exact ⟨keeps_lasting.sent k r hs.1 hactive, hs.2.sendReturn hactive⟩
  answer := by
    intro k r c i tsx resp reinit register taken hs hactive hi hpos
    refine ⟨keeps_lasting.answer k r c i tsx resp reinit register taken hs.1 hactive hi hpos.1, ?_⟩
    have htimer : r.timer = none := timer_of_active hactive hi
    have htsxs : r.tsxs ≠ [] := List.ne_nil_of_mem (List.mem_of_getElem? hi)
    exact (called_of_active hactive hi).alive hactive.deleteFlag htimer hs.2.autoReg
      hs.1.carries.expiresHdr (hs.2.registering htsxs) hpos.1 hpos.2
  timer := by
    intro k r c register taken hs hactive htimer hpos
    refine ⟨keeps_lasting.timer k r c register taken hs.1 hactive htimer trivial, ?_⟩
    obtain ⟨rfl, rfl⟩ := hpos
    exact hactive.alive (tsxs_of_timer hactive htimer) hs.1.carries.expiresHdr

/-- In every run in which no answer tells an expiration: every REGISTER of a client in memory has
asked for the expiry of its node, and a refresh that is scheduled comes before what the node is
granted expires if and only if that is six seconds at least. -/
theorem refresh_lt_iff_of_plain {es : List Event} (hplain : ∀ e ∈ es, e.Plain)
    (hnode : gConfig.nodeInfoList[k]? = some node) (h32 : IsInt32 node.expires)
    (h : Trace.run (step gConfig) (start gConfig) es = some s) (hb : s.clients[c]? = some ⟨k, reg⟩)
    (hlive : reg.released = false) :
    (∀ q ∈ reg.requests, granted q.expires = grantedTo node.expires) ∧
      ∀ d, reg.timer = some d → 0 < grantedTo node.expires ∧
        (d < grantedTo node.expires ↔ 6 ≤ grantedTo node.expires) := by
  obtain ⟨hkept, -⟩ := kept_of_run keeps_lasting hplain h
  rw [← granted_hdrOf hnode h32]
  rcases hkept.good c _ hb with hreleased | howner | hs
  · exact absurd (hlive.symm.trans hreleased) Bool.false_ne_true
  · -- the call of `gbRegister` has not sent anything yet
    obtain ⟨r, hr, hbare, hnone⟩ := bare_of_made hkept.made howner
    obtain rfl : reg = r := congrArg Binding.regc (Option.some.inj (hb.symm.trans hr))
    refine ⟨fun q hq => absurd (hnone ▸ hq) List.not_mem_nil, fun d hd => ?_⟩
    exact absurd (hbare.timer.symm.trans hd) (by simp)
  · exact ⟨fun q hq => by rw [hs.carries.requests q hq], fun d hd => hs.timer d hd⟩

/-- If every request is taken and answered positively, a client waits for an answer, or has a refresh
scheduled exactly if what its node is granted is positive.  Only one that `gbRegister` still holds
or has given up does neither. -/
theorem alive_of_run {es : List Event} (hpos : ∀ e ∈ es, e.Positive)
    (hnode : gConfig.nodeInfoList[k]? = some node) (h32 : IsInt32 node.expires)
    (h : Trace.run (step gConfig) (start gConfig) es = some s)
    (hb : s.clients[c]? = some ⟨k, reg⟩) :
    reg.released = true ∨ s.pc.owner = some (k, c) ∨ reg.tsxs ≠ [] ∨
      (reg.timer.isSome = true ↔ 0 < grantedTo node.expires) := by
  obtain ⟨hkept, -⟩ := kept_of_run keeps_alive hpos h
  rw [← granted_hdrOf hnode h32]
  exact (hkept.good c _ hb).imp_right fun hr => hr.imp_right fun hs => hs.2.waits

/-- The registration of a node is granted and refreshed twice. -/
def refreshedTwice : List Event :=
  pass ++ [.answer 0 0 (.ofCode 200) 0 0 .accepted, .timer 0 0 .accepted,
    .answer 0 0 (.ofCode 200) 0 0 .accepted]

lemma positive_refreshedTwice : ∀ e ∈ refreshedTwice, e.Positive := by
  have hanswer : Event.Positive (.answer 0 0 (.ofCode 200) 0 0 .accepted) :=
    ⟨⟨rfl, rfl, by decide⟩, by decide⟩
  intro e he
  simp only [refreshedTwice, pass, List.cons_append, List.nil_append, List.mem_cons,
    List.not_mem_nil, or_false] at he
  rcases he with rfl | rfl | rfl | rfl | rfl | rfl | rfl | rfl | rfl | rfl | rfl
  all_goals first | exact hanswer | exact trivial | exact rfl | exact ⟨rfl, rfl⟩

theorem refresh_lt_iff_refreshedTwice : ∃ s reg,
    Trace.run (step oneNode) (start oneNode) refreshedTwice = some s ∧
    s.clients[0]? = some ⟨0, reg⟩ ∧ reg.timer = some 3595 ∧
    (∀ q ∈ reg.requests, granted q.expires = grantedTo 3600) ∧
      ∀ d, reg.timer = some d → 0 < grantedTo 3600 ∧
        (d < grantedTo 3600 ↔ 6 ≤ grantedTo 3600) := by
  refine ⟨_, _, rfl, rfl, rfl, ?_⟩
  apply refresh_lt_iff_of_plain (c := 0) (fun e he => (positive_refreshedTwice e he).plain)
    (rfl : oneNode.nodeInfoList[0]? = _) (by decide)
    (rfl : Trace.run (step oneNode) (start oneNode) refreshedTwice = _)
  · rfl
  · rfl

theorem alive_refreshedTwice : ∃ s reg,
    Trace.run (step oneNode) (start oneNode) refreshedTwice = some s ∧
    s.clients[0]? = some ⟨0, reg⟩ ∧
    (reg.released = true ∨ s.pc.owner = some (0, 0) ∨ reg.tsxs ≠ [] ∨
      (reg.timer.isSome = true ↔ 0 < grantedTo 3600)) :=
  ⟨_, _, rfl, rfl, alive_of_run positive_refreshedTwice (rfl : oneNode.nodeInfoList[0]? = _)
    (by decide) (rfl : Trace.run (step oneNode) (start oneNode) refreshedTwice = _) rfl⟩

end Sub.Clients
