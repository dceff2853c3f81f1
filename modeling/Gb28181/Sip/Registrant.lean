import Gb28181.Sip.RegClient

/-!
# No use of a client after its release

`pjsip_regc_destroy` releases a client at once only if nobody uses it; otherwise it leaves a flag,
and whoever leaves the client last releases it.  That this never goes wrong is an invariant of
the runs of a client, whatever the stack answers and whenever the application destroys it, in a
callback or not, as long as it does not use a client that it has destroyed.  The assertion on the
expiration of an answer can fail, but only where `NOEXP` itself is configured or told.
-/

namespace Sip.Registrant

open Lib

/-- What can happen to a client: the application calls `pjsip_regc_register`, `pjsip_regc_send`
(which returns with `sendEnd`) or `pjsip_regc_destroy`; the `i`-th transaction ends; the refresh
timer fires. -/
inductive Event where
  | register (autoReg : Bool) (status : ℤ)
  | send (tdata : TxData) (taken : Taken) (destroys : Bool)
  | sendEnd
  | destroy
  | answer (i : ℕ) (resp : Response) (reinit register : ℤ) (taken : Taken) (destroys : Bool)
  | timer (register : ℤ) (taken : Taken) (destroys : Bool)
  deriving DecidableEq

/-- The application has destroyed the client. -/
def destroyed (s : Registrant) : Prop := s.regc.deleteFlag = true ∨ s.released = true

instance (s : Registrant) : Decidable s.destroyed := inferInstanceAs (Decidable (_ ∨ _))

/-- The application may use the client. -/
def usable (s : Registrant) : Prop := s.sending = false ∧ ¬ s.destroyed

instance (s : Registrant) : Decidable s.usable := inferInstanceAs (Decidable (_ ∧ _))

/-- A step of a client; `none` says that the event cannot happen. -/
def step (s : Registrant) : Event → Option Registrant
  | .register autoReg status => if s.usable then some (s.register autoReg status) else none
  | .send tdata taken destroys =>
    if s.usable then some (s.sendCall tdata taken destroys).1 else none
  | .sendEnd => if s.sending then some s.sendReturn else none
  | .destroy => if s.usable then some s.destroy else none
  | .answer i resp reinit register taken destroys =>
    match s.tsxs[i]? with
    | some tsx =>
      if 200 ≤ resp.code then
        some ({ s with tsxs := s.tsxs.eraseIdx i }.tsxCallback tsx resp reinit register taken
          destroys).1
      else none
    | none => none
  | .timer register taken destroys =>
    if s.timer.isSome then some (s.refreshTimerCb register taken destroys).1 else none

/-- `n` threads, and the application if it is in `pjsip_regc_send`, are in functions of the
client, and all is well. -/
structure Held (n : ℕ) (s : Registrant) : Prop where
  fault : s.fault = false
  released : s.released = false
  busy : s.regc.busyCtr = n + s.sending.toNat
  tsxs : s.tsxs.length = s.regc.hasTsx.toNat
  timer : s.timer.isSome = s.regc.timerId
  cb : s.regc.cb = !s.regc.deleteFlag

/-- What holds between the steps. -/
inductive Sound (s : Registrant) : Prop
  /-- The client is in use, or nobody uses it and the application has not destroyed it. -/
  | live (held : Held 0 s)
      (pending : s.regc.deleteFlag = true → s.regc.hasTsx = true ∨ s.sending = true)
  /-- The client is released, and nobody will call back. -/
  | gone (fault : s.fault = false) (released : s.released = true) (tsxs : s.tsxs = [])
      (timer : s.timer = none) (sending : s.sending = false)

variable {s : Registrant} {n : ℕ} {destroys : Bool} {code : ℤ} {taken : Taken} {tdata : TxData}

lemma Held.touch (h : Held n s) : s.touch = s := by
  have hfault : (s.fault || s.released) = s.fault := by rw [h.released, Bool.or_false]
  rw [Registrant.touch, hfault]

lemma Held.update (h : Held n s) (f : RegClient → RegClient) :
    s.update f = { s with regc := f s.regc } := by
  rw [Registrant.update, h.touch]

/-- A change of fields that do not matter here. -/
lemma Held.congr (h : Held n s) {r : RegClient} (hbusy : r.busyCtr = s.regc.busyCtr)
    (htsx : r.hasTsx = s.regc.hasTsx) (htimer : r.timerId = s.regc.timerId) (hcb : r.cb = s.regc.cb)
    (hflag : r.deleteFlag = s.regc.deleteFlag) : Held n { s with regc := r } :=
  ⟨h.fault, h.released, hbusy ▸ h.busy, htsx ▸ h.tsxs, htimer ▸ h.timer, hcb ▸ hflag ▸ h.cb⟩

lemma Held.idle (h : Held n s) : Held n s.idle := by
  rw [Registrant.idle, h.update]
  exact h.congr rfl rfl rfl rfl rfl

lemma Held.enter (h : Held n s) : Held (n + 1) s.enter := by
  rw [Registrant.enter, h.update]
  exact ⟨h.fault, h.released, by simp only [h.busy]; omega, h.tsxs, h.timer, h.cb⟩

lemma Held.cancelTimer (h : Held n s) : Held n s.cancelTimer := by
  rw [Registrant.cancelTimer, h.update]
  refine ⟨h.fault, h.released, h.busy, h.tsxs, ?_, h.cb⟩
  have htimer := h.timer
  cases hid : s.regc.timerId <;> simp_all

/-- Destroying a client that is in use leaves it in use. -/
lemma Held.destroy (h : Held (n + 1) s) : Held (n + 1) s.destroy := by
  have hbusy : s.regc.busyCtr ≠ 0 := by have := h.busy; omega
  rw [Registrant.destroy, if_pos (Or.inr hbusy), h.update]
  exact ⟨h.fault, h.released, h.busy, h.tsxs, h.timer, rfl⟩

/-- If nobody uses the client any more, destroying it releases it or waits for its
transaction. -/
lemma Held.sound_destroy (h : Held 0 s) : Sound s.destroy := by
  rw [Registrant.destroy]
  split
  · next huse =>
    rw [h.update]
    refine .live ⟨h.fault, h.released, h.busy, h.tsxs, h.timer, rfl⟩ fun _ => ?_
    refine huse.imp_right fun hbusy => ?_
    have hsending := h.busy
    cases hs : s.sending with
    | true => rfl
    | false =>
      rw [hs] at hsending
      exact absurd hsending hbusy
  · next huse =>
    rw [not_or, not_not] at huse
    obtain ⟨htsx, hbusy⟩ := huse
    have hc := h.cancelTimer
    have hsending := h.busy
    have htsxs := h.tsxs
    have htimer := hc.timer
    rw [Registrant.cancelTimer, h.update] at *
    refine .gone h.fault rfl ?_ ?_ ?_
    · simpa [htsx] using htsxs
    · simpa using htimer
    · cases hs : s.sending with
      | false => rfl
      | true => rw [hs, hbusy] at hsending; simp at hsending

lemma Held.leave (h : Held (n + 2) s) : Held (n + 1) s.leave := by
  have hbusy := h.busy
  rw [Registrant.leave, h.update]
  simp only
  rw [if_neg (fun hc => absurd hc.1 (by omega))]
  exact ⟨h.fault, h.released, by simp only [hbusy]; omega, h.tsxs, h.timer, h.cb⟩

lemma Held.sound_leave (h : Held 1 s) : Sound s.leave := by
  have hbusy := h.busy
  have h' : Held 0 { s with regc := { s.regc with busyCtr := s.regc.busyCtr - 1 } } :=
    ⟨h.fault, h.released, by simp only [hbusy]; omega, h.tsxs, h.timer, h.cb⟩
  rw [Registrant.leave, h.update]
  simp only
  split
  · exact h'.sound_destroy
  · next hlast =>
    refine .live h' fun hflag => Or.inr ?_
    cases hs : s.sending with
    | true => rfl
    | false => exact absurd ⟨by rw [hbusy, hs]; rfl, hflag⟩ hlast

lemma Held.callCallback (h : Held (n + 1) s) : Held (n + 1) (s.callCallback destroys code).1 := by
  rw [Registrant.callCallback, h.touch]
  split
  · split
    · exact h.destroy
    · exact h
  · exact h

@[simp] lemma regc_assertExpiration {expiration : ℤ} :
    (s.assertExpiration expiration).regc = s.regc := rfl

lemma Held.assertExpiration {expiration : ℤ} (h : Held n s) :
    Held n (s.assertExpiration expiration) :=
  ⟨h.fault, h.released, h.busy, h.tsxs, h.timer, h.cb⟩

lemma Held.schedule {expiration : ℤ} (h : Held n s) : Held n (s.schedule expiration) := by
  rw [Registrant.schedule, h.touch, h.update]
  split
  · exact ⟨h.fault, h.released, h.busy, h.tsxs, rfl, h.cb⟩
  · exact h

lemma Held.complete {expiration : ℤ} (h : Held n s) : Held n (s.complete expiration) := by
  rw [Registrant.complete, h.update]
  exact h.congr rfl rfl rfl rfl rfl

lemma Held.handleErr {resp : Response} (h : Held (n + 1) s) :
    Held (n + 1) (s.handleErr resp destroys).1 := by
  rw [Registrant.handleErr]
  split
  · exact h.assertExpiration.schedule.complete.callCallback
  · exact h.complete.callCallback

lemma Held.handle {resp : Response} (h : Held (n + 1) s) :
    Held (n + 1) (s.handle resp destroys).1 := by
  rw [Registrant.handle]
  split
  · exact h.idle
  · exact h.handleErr

/-- What a callback starts from: the transaction is over, and the flag is still set. -/
structure Called (n : ℕ) (s : Registrant) : Prop where
  fault : s.fault = false
  released : s.released = false
  busy : s.regc.busyCtr = n + s.sending.toNat
  tsxs : s.tsxs = []
  timer : s.timer.isSome = s.regc.timerId
  cb : s.regc.cb = !s.regc.deleteFlag
  tsx : s.regc.hasTsx = true

/-- What the body of a callback starts from. -/
lemma Called.held (h : Called n s) :
    Held (n + 1) ((s.enter.assert s.regc.hasTsx).setTsx false) := by
  have hbusy := h.busy
  refine ⟨?_, h.released, ?_, congrArg List.length h.tsxs, h.timer, h.cb⟩
  · simp [setTsx, assert, Registrant.enter, Registrant.update, Registrant.touch, h.fault,
      h.released, h.tsx]
  · simp only [setTsx, assert, Registrant.enter, Registrant.update, Registrant.touch, hbusy]
    omega

/-- A callback in a function of the client. -/
lemma Called.inCallback {body : Registrant → Registrant × List ℤ} (h : Called (n + 1) s)
    (hbody : ∀ s, Held (n + 2) s → Held (n + 2) (body s).1) :
    Held (n + 1) (s.inCallback body).1 :=
  (hbody _ h.held).leave

/-- A callback by itself. -/
lemma Called.sound_inCallback {body : Registrant → Registrant × List ℤ} (h : Called 0 s)
    (hbody : ∀ s, Held 1 s → Held 1 (body s).1) : Sound (s.inCallback body).1 :=
  (hbody _ h.held).sound_leave

/-- A transaction that does not exist, or not any more. -/
lemma Held.setTsx (h : Held n s) (htsxs : s.tsxs = []) : Held n (s.setTsx false) := by
  rw [Registrant.setTsx, h.update]
  exact ⟨h.fault, h.released, h.busy, by rw [show _ = [] from htsxs]; rfl, h.timer, h.cb⟩

/-! ### Sending -/

lemma Held.tsxs_eq_nil (h : Held n s) (htsx : s.regc.hasTsx = false) : s.tsxs = [] :=
  List.eq_nil_of_length_eq_zero (by rw [h.tsxs, htsx]; rfl)

/-- After the locked part of `pjsip_regc_send`, without a transaction yet. -/
lemma Held.begin (h : Held n s) (htsx : s.regc.hasTsx = false) : Called n (s.begin tdata) := by
  rw [Registrant.begin, h.update]
  exact ⟨h.fault, h.released, h.busy, h.tsxs_eq_nil htsx, h.timer, h.cb, rfl⟩

/-- Nothing is sent, and what the next request will be is unchanged. -/
structure Quiet (s s' : Registrant) : Prop where
  tsxs : s'.tsxs = s.tsxs
  requests : s'.requests = s.requests
  sending : s'.sending = s.sending
  cseq : s'.regc.cseq = s.regc.cseq
  expiresHdr : s'.regc.expiresHdr = s.regc.expiresHdr

lemma Quiet.trans {t u : Registrant} (h : Quiet s t) (h' : Quiet t u) : Quiet s u :=
  ⟨h'.tsxs.trans h.tsxs, h'.requests.trans h.requests, h'.sending.trans h.sending,
    h'.cseq.trans h.cseq, h'.expiresHdr.trans h.expiresHdr⟩

lemma quiet_destroy : Quiet s s.destroy := by
  rw [Registrant.destroy]
  split <;> exact ⟨rfl, rfl, rfl, rfl, rfl⟩

lemma quiet_update {f : RegClient → RegClient} (hcseq : (f s.regc).cseq = s.regc.cseq)
    (hexpires : (f s.regc).expiresHdr = s.regc.expiresHdr) : Quiet s (s.update f) :=
  ⟨rfl, rfl, rfl, hcseq, hexpires⟩

lemma quiet_idle : Quiet s s.idle := quiet_update rfl rfl

lemma quiet_register {autoReg : Bool} {status : ℤ} : Quiet s (s.register autoReg status) := by
  rw [Registrant.register]
  split <;> exact ⟨rfl, rfl, rfl, rfl, rfl⟩

lemma quiet_leave : Quiet s s.leave := by
  rw [Registrant.leave]
  generalize hu : s.update _ = u
  have hq : Quiet s u := hu ▸ quiet_update rfl rfl
  split
  · exact hq.trans quiet_destroy
  · exact hq

lemma quiet_callCallback : Quiet s (s.callCallback destroys code).1 := by
  rw [Registrant.callCallback]
  split
  · cases destroys with
    | true =>
      have hq : Quiet s s.touch := ⟨rfl, rfl, rfl, rfl, rfl⟩
      exact hq.trans quiet_destroy
    | false => exact ⟨rfl, rfl, rfl, rfl, rfl⟩
  · exact ⟨rfl, rfl, rfl, rfl, rfl⟩

lemma quiet_assertExpiration {expiration : ℤ} : Quiet s (s.assertExpiration expiration) :=
  ⟨rfl, rfl, rfl, rfl, rfl⟩

lemma quiet_schedule {expiration : ℤ} : Quiet s (s.schedule expiration) := by
  rw [Registrant.schedule]
  split <;> exact ⟨rfl, rfl, rfl, rfl, rfl⟩

lemma quiet_complete {expiration : ℤ} : Quiet s (s.complete expiration) := ⟨rfl, rfl, rfl, rfl, rfl⟩

lemma quiet_handleErr {resp : Response} : Quiet s (s.handleErr resp destroys).1 := by
  rw [Registrant.handleErr]
  split
  · exact quiet_assertExpiration.trans
      (quiet_schedule.trans (quiet_complete.trans quiet_callCallback))
  · exact quiet_complete.trans quiet_callCallback

lemma quiet_handle {resp : Response} : Quiet s (s.handle resp destroys).1 := by
  rw [Registrant.handle]
  split
  · exact ⟨rfl, rfl, rfl, rfl, rfl⟩
  · exact quiet_handleErr

/-- A callback sends nothing that its body does not send. -/
lemma quiet_inCallback {body : Registrant → Registrant × List ℤ}
    (hbody : ∀ s, Quiet s (body s).1) : Quiet s (s.inCallback body).1 := by
  have hq : Quiet s ((s.enter.assert s.regc.hasTsx).setTsx false) := ⟨rfl, rfl, rfl, rfl, rfl⟩
  exact hq.trans ((hbody _).trans quiet_leave)

/-- A request that is handed to the stack in a function of the client. -/
lemma Called.endptSend (h : Called (n + 1) s) :
    Held (n + 1) (s.endptSend tdata taken destroys).1 := by
  have hfail : ∀ code, Held (n + 1)
      ((s.inCallback fun s => s.handle (.ofCode code) destroys).1.setTsx false) := by
    intro code
    refine Held.setTsx (h.inCallback fun s hs => hs.handle) ?_
    exact (quiet_inCallback fun s => quiet_handle).tsxs.trans h.tsxs
  cases taken with
  | accepted =>
    refine ⟨h.fault, h.released, h.busy, ?_, h.timer, h.cb⟩
    simp [Registrant.endptSend, h.tsxs, h.tsx]
  | refused status =>
    have htouch : s.touch = s := by
      have hfault : (s.fault || s.released) = s.fault := by rw [h.released, Bool.or_false]
      rw [Registrant.touch, hfault]
    simp only [Registrant.endptSend, Registrant.setTsx, Registrant.update, htouch]
    exact ⟨h.fault, h.released, h.busy, congrArg List.length h.tsxs, h.timer, h.cb⟩
  | unresolved status => exact hfail 502
  | transportError status => exact hfail 503

lemma Held.sendBegin (h : Held n s) (htsx : s.regc.hasTsx = false) :
    Held (n + 1) (s.sendBegin tdata taken destroys).1 := by
  have htsx' : s.enter.regc.hasTsx = false := htsx
  exact (h.enter.begin htsx').endptSend

lemma sending_sendBegin : (s.sendBegin tdata taken destroys).1.sending = s.sending := by
  have hfail : ∀ (t : Registrant) (code : ℤ),
      (t.inCallback fun s => s.handle (.ofCode code) destroys).1.sending = t.sending :=
    fun t code => (quiet_inCallback fun s => quiet_handle).sending
  cases taken with
  | accepted => rfl
  | refused status => rfl
  | unresolved status => exact hfail _ 502
  | transportError status => exact hfail _ 503

lemma Held.send (h : Held (n + 1) s) : Held (n + 1) (s.send tdata taken destroys).1 := by
  rw [Registrant.send]
  split
  · rw [h.touch]
    exact h
  · next htsx => exact (h.sendBegin (by simpa using htsx)).leave

lemma Held.register {autoReg : Bool} {status : ℤ} (h : Held n s) :
    Held n (s.register autoReg status) := by
  rw [Registrant.register]
  split
  · rw [h.cancelTimer.update]
    exact h.cancelTimer.congr rfl rfl rfl rfl rfl
  · rw [h.touch]
    exact h

lemma Held.registerSend {autoReg : Bool} {status : ℤ} (h : Held (n + 1) s) :
    Held (n + 1) (s.registerSend autoReg status taken destroys).1 := by
  rw [Registrant.registerSend]
  split
  · exact h.register.send
  · exact h.register

lemma Held.report {r : Registrant × List ℤ × ℤ} (h : Held (n + 1) r.1) :
    Held (n + 1) (report r destroys code).1 := by
  rw [Registrant.report]
  split
  · exact h.callCallback
  · rw [h.touch]
    exact h

lemma Held.challenged {tsx : TxData} {reinit : ℤ} (h : Held (n + 1) s) :
    Held (n + 1) (s.challenged tsx code reinit taken destroys).1 := by
  refine Held.report ?_
  split
  · exact h.idle.send
  · exact h.idle

lemma Held.tooBrief {resp : Response} {register : ℤ} (h : Held (n + 1) s) :
    Held (n + 1) (s.tooBrief resp register taken destroys).1 := by
  rw [Registrant.tooBrief]
  split
  · exact h.idle.handleErr
  · refine Held.report (Held.registerSend ?_)
    rw [h.idle.update]
    exact h.idle.congr rfl rfl rfl rfl rfl

/-! ### The steps -/

lemma Called.tsxCallback {tsx : TxData} {resp : Response} {reinit register : ℤ}
    (h : Called 0 s) : Sound (s.tsxCallback tsx resp reinit register taken destroys).1 := by
  refine h.sound_inCallback fun s hs => ?_
  split
  · exact hs.challenged
  · split
    · exact hs.idle
    · split
      · exact hs.tooBrief
      · exact hs.handleErr

lemma Held.fire (h : Held n s) : Held (n + 1) s.fire := by
  rw [Registrant.fire, h.enter.update]
  exact ⟨h.enter.fault, h.enter.released, h.enter.busy, h.enter.tsxs, rfl, h.enter.cb⟩

lemma Held.refreshTimerCb {register : ℤ} (h : Held 0 s) :
    Sound (s.refreshTimerCb register taken destroys).1 := by
  rw [Registrant.refreshTimerCb]
  refine Held.sound_leave ?_
  split
  · exact h.fire.registerSend.callCallback
  · exact h.fire.registerSend

/-- A client that the application may use is in use by nobody. -/
lemma Sound.held (hs : Sound s) (h : s.released = false) : Held 0 s := by
  cases hs with
  | live held => exact held
  | gone _ released => exact absurd released (by simp [h])

/-- A transaction of which the answer is still to come is the only one. -/
lemma Sound.called {i : ℕ} {tsx : TxData} (hs : Sound s) (hi : s.tsxs[i]? = some tsx) :
    Called 0 { s with tsxs := s.tsxs.eraseIdx i } := by
  cases hs with
  | gone _ _ tsxs => simp [tsxs] at hi
  | live held =>
    have hlen := held.tsxs
    have hlt : i < s.tsxs.length := (List.getElem?_eq_some_iff.1 hi).1
    have htsx : s.regc.hasTsx = true := by
      cases hb : s.regc.hasTsx with
      | true => rfl
      | false =>
        rw [hb] at hlen
        exact absurd hlt (by rw [hlen]; simp)
    have hnil : s.tsxs.eraseIdx i = [] := by
      rw [htsx] at hlen
      refine List.eq_nil_of_length_eq_zero ?_
      rw [List.length_eraseIdx_of_lt hlt, hlen]
      rfl
    exact ⟨held.fault, held.released, held.busy, hnil, held.timer, held.cb, htsx⟩

lemma sound_step {e : Event} {s' : Registrant} (hs : Sound s) (h : s.step e = some s') :
    Sound s' := by
  have huse : s.usable → Held 0 s ∧ s.regc.deleteFlag = false := by
    rintro ⟨-, hnot⟩
    rw [destroyed, not_or, Bool.not_eq_true, Bool.not_eq_true] at hnot
    exact ⟨hs.held hnot.2, hnot.1⟩
  cases e with
  | register autoReg status =>
    simp only [step] at h
    split at h
    · next hu =>
      obtain rfl := Option.some.inj h
      obtain ⟨held, hflag⟩ := huse hu
      refine .live held.register fun hf => ?_
      rw [show (s.register autoReg status).regc.deleteFlag = s.regc.deleteFlag by
        rw [Registrant.register]; split <;> rfl, hflag] at hf
      exact absurd hf (by simp)
    · simp at h
  | send tdata taken destroys =>
    simp only [step] at h
    split at h
    · next hu =>
      obtain ⟨held, hflag⟩ := huse hu
      obtain rfl := Option.some.inj h
      rw [sendCall]
      split
      · rw [held.touch]
        exact hs
      · next htsx =>
        have hb : Held 1 (s.sendBegin tdata taken destroys).1 :=
          held.sendBegin (by simpa using htsx)
        have hbusy := hb.busy
        rw [sending_sendBegin, hu.1] at hbusy
        exact .live ⟨hb.fault, hb.released, hbusy, hb.tsxs, hb.timer, hb.cb⟩ fun _ => Or.inr rfl
    · simp at h
  | sendEnd =>
    simp only [step] at h
    split at h
    · next hsend =>
      obtain rfl := Option.some.inj h
      rw [sendReturn, if_pos hsend]
      refine Held.sound_leave ?_
      cases hs with
      | gone _ _ _ _ sending => exact absurd hsend (by simp [sending])
      | live held =>
        have hbusy := held.busy
        rw [hsend] at hbusy
        exact ⟨held.fault, held.released, hbusy, held.tsxs, held.timer, held.cb⟩
    · simp at h
  | destroy =>
    simp only [step] at h
    split at h
    · next hu =>
      obtain rfl := Option.some.inj h
      exact (huse hu).1.sound_destroy
    · simp at h
  | answer i resp reinit register taken destroys =>
    simp only [step] at h
    split at h
    · next tsx hi =>
      split at h
      · obtain rfl := Option.some.inj h
        exact (hs.called hi).tsxCallback
      · simp at h
    · simp at h
  | timer register taken destroys =>
    simp only [step] at h
    split at h
    · next ht =>
      obtain rfl := Option.some.inj h
      cases hs with
      | gone _ _ _ timer => exact absurd ht (by simp [timer])
      | live held => exact held.refreshTimerCb
    · simp at h

lemma held_create : Held 0 create := ⟨rfl, rfl, rfl, rfl, rfl, rfl⟩

lemma Held.init {expires cseq : ℕ} (h : Held n s) : Held n (s.init expires cseq) := by
  rw [Registrant.init, h.update]
  exact h.congr rfl rfl rfl rfl rfl

lemma sound_start {expires cseq : ℕ} : Sound (create.init expires cseq) :=
  .live held_create.init fun hflag => absurd hflag Bool.false_ne_true

/-! ### The expiration of an answer -/

/-- An answer with usual expirations, or another event. -/
def Event.Usual : Event → Prop
  | .answer _ resp _ _ _ _ => resp.Usual
  | _ => True

/-- All answers have told an expiration so far, and the client asks for one. -/
structure Told (s : Registrant) : Prop where
  noExpiration : s.noExpiration = false
  expiresHdr : s.regc.expiresHdr ≠ some noExp

variable {resp : Response} {r : RegClient}

lemma usual_ofCode : (Response.ofCode code).Usual :=
  ⟨fun _ h => absurd h List.not_mem_nil, fun _ h => absurd h (by simp [Response.ofCode]),
    fun _ h => absurd h (by simp [Response.ofCode])⟩

lemma fallback_ne (h : resp.Usual) (hr : r.expiresHdr ≠ some noExp) :
    r.fallback resp ≠ noExp := by
  rw [RegClient.fallback]
  split
  · next ivalue hexpires => exact h.expires ivalue hexpires
  · cases hhdr : r.expiresHdr with
    | none => exact show (3600 : ℤ) ≠ noExp by decide
    | some ivalue => exact fun heq => hr (hhdr.trans (congrArg some heq))

lemma unmatched_ne (h : resp.Usual) (hr : r.expiresHdr ≠ some noExp) :
    r.unmatched (resp.contacts.take 10) resp ≠ noExp := by
  cases hcontacts : resp.contacts.take 10 with
  | nil => exact fallback_ne h hr
  | cons contact rest =>
    have hmem : contact ∈ resp.contacts.take 10 := by
      rw [hcontacts]
      exact List.mem_cons_self
    simp only [RegClient.unmatched]
    split
    · exact h.contacts contact (List.mem_of_mem_take hmem)
    · exact fallback_ne h hr

lemma responseExpiration_ne (h : resp.Usual) (hr : r.expiresHdr ≠ some noExp) :
    r.responseExpiration resp ≠ noExp := by
  rw [RegClient.responseExpiration]
  split
  · rw [ne_eq, ite_eq_iff]
    rintro (⟨-, heq⟩ | ⟨hne, heq⟩)
    · exact unmatched_ne h hr heq
    · exact hne heq
  · decide

/-- The expiration that is requested after a 423 response. -/
lemma minExpires_ne (h : resp.Usual) {minExp : ℤ} (hmin : s.minExpires resp = some minExp) :
    IsInt32 minExp ∧ minExp ≠ noExp := by
  rw [Registrant.minExpires, Option.filter_eq_some_iff] at hmin
  obtain ⟨hmin, -⟩ := hmin
  split at hmin
  · next ivalue hresp =>
    obtain rfl := Option.some.inj hmin
    exact ⟨ivalue.2, h.minExpires ivalue hresp⟩
  · split at hmin
    · simp at hmin
    · obtain rfl := Option.some.inj hmin
      exact ⟨by decide, by decide⟩

/-- It depends on two fields only. -/
lemma Told.congr {t : Registrant} (h : Told s) (hno : t.noExpiration = s.noExpiration)
    (hhdr : t.regc.expiresHdr = s.regc.expiresHdr) : Told t :=
  ⟨hno.trans h.noExpiration, hhdr ▸ h.expiresHdr⟩

/-- The assertion holds of every other expiration. -/
lemma Told.assertExpiration {expiration : ℤ} (h : Told s) (hne : expiration ≠ noExp) :
    Told (s.assertExpiration expiration) :=
  ⟨by simp [Registrant.assertExpiration, h.noExpiration, hne], h.expiresHdr⟩

lemma Told.destroy (h : Told s) : Told s.destroy := by
  rw [Registrant.destroy]
  split <;> exact h.congr rfl rfl

lemma Told.leave (h : Told s) : Told s.leave := by
  have hupdate : Told (s.update fun r => { r with busyCtr := r.busyCtr - 1 }) := h.congr rfl rfl
  rw [Registrant.leave]
  split
  · exact hupdate.destroy
  · exact hupdate

lemma Told.callCallback (h : Told s) : Told (s.callCallback destroys code).1 := by
  have htouch : Told s.touch := h.congr rfl rfl
  rw [Registrant.callCallback]
  split
  · cases destroys with
    | true => exact htouch.destroy
    | false => exact htouch
  · exact htouch

lemma Told.schedule {expiration : ℤ} (h : Told s) : Told (s.schedule expiration) := by
  rw [Registrant.schedule]
  split <;> exact h.congr rfl rfl

lemma Told.complete {expiration : ℤ} (h : Told s) : Told (s.complete expiration) :=
  h.congr rfl rfl

lemma Told.idle (h : Told s) : Told s.idle := h.congr rfl rfl

lemma Told.handleErr (h : Told s) (hresp : resp.Usual) : Told (s.handleErr resp destroys).1 := by
  rw [Registrant.handleErr]
  split
  · have hne := responseExpiration_ne hresp h.expiresHdr
    exact (h.assertExpiration hne).schedule.complete.callCallback
  · exact h.complete.callCallback

lemma Told.handle (h : Told s) (hresp : resp.Usual) : Told (s.handle resp destroys).1 := by
  rw [Registrant.handle]
  split
  · exact h.idle
  · exact h.handleErr hresp

lemma Told.inCallback {body : Registrant → Registrant × List ℤ} (h : Told s)
    (hbody : ∀ s, Told s → Told (body s).1) : Told (s.inCallback body).1 := by
  have hbegin : Told ((s.enter.assert s.regc.hasTsx).setTsx false) := h.congr rfl rfl
  exact (hbody _ hbegin).leave

lemma Told.sendBegin (h : Told s) : Told (s.sendBegin tdata taken destroys).1 := by
  have hbegin : Told (s.enter.begin tdata) := h.congr rfl rfl
  have hfail : ∀ code, Told ((s.enter.begin tdata).inCallback
      fun s => s.handle (.ofCode code) destroys).1 :=
    fun code => hbegin.inCallback fun _ hs => hs.handle usual_ofCode
  cases taken with
  | accepted => exact hbegin.congr rfl rfl
  | refused status => exact hbegin.congr rfl rfl
  | unresolved status => exact (hfail 502).congr rfl rfl
  | transportError status => exact (hfail 503).congr rfl rfl

lemma Told.send (h : Told s) : Told (s.send tdata taken destroys).1 := by
  rw [Registrant.send]
  split
  · exact h.congr rfl rfl
  · exact h.sendBegin.leave

lemma Told.register {autoReg : Bool} {status : ℤ} (h : Told s) :
    Told (s.register autoReg status) := by
  rw [Registrant.register]
  split <;> exact h.congr rfl rfl

lemma Told.registerSend {autoReg : Bool} {status : ℤ} (h : Told s) :
    Told (s.registerSend autoReg status taken destroys).1 := by
  rw [Registrant.registerSend]
  split
  · exact h.register.send
  · exact h.register

lemma Told.report {r : Registrant × List ℤ × ℤ} (h : Told r.1) :
    Told (report r destroys code).1 := by
  rw [Registrant.report]
  split
  · exact h.callCallback
  · exact h.congr rfl rfl

lemma Told.challenged {tsx : TxData} {reinit : ℤ} (h : Told s) :
    Told (s.challenged tsx code reinit taken destroys).1 := by
  refine Told.report ?_
  split
  · exact h.idle.send
  · exact h.idle

/-- After a 423 response the client asks for an expiration that is usual, too. -/
lemma Told.tooBrief {register : ℤ} (h : Told s) (hresp : resp.Usual) :
    Told (s.tooBrief resp register taken destroys).1 := by
  rw [Registrant.tooBrief]
  split
  · exact h.idle.handleErr hresp
  · next minExp hmin =>
    obtain ⟨h32, hne⟩ := minExpires_ne hresp hmin
    refine Told.report (Told.registerSend ⟨h.noExpiration, ?_⟩)
    show setExpiresHdr s.regc.expires (toUInt32 minExp) ≠ some noExp
    rw [setExpiresHdr, wrap32_toUInt32 h32]
    split
    · exact fun heq => hne (Option.some.inj heq)
    · exact (Option.some_ne_none _).symm

lemma Told.tsxCallback {tsx : TxData} {reinit register : ℤ} (h : Told s) (hresp : resp.Usual) :
    Told (s.tsxCallback tsx resp reinit register taken destroys).1 := by
  refine h.inCallback fun s hs => ?_
  split
  · exact hs.challenged
  · split
    · exact hs.idle
    · split
      · exact hs.tooBrief hresp
      · exact hs.handleErr hresp

lemma Told.refreshTimerCb {register : ℤ} (h : Told s) :
    Told (s.refreshTimerCb register taken destroys).1 := by
  have hfire : Told s.fire := h.congr rfl rfl
  rw [Registrant.refreshTimerCb]
  refine Told.leave ?_
  split
  · exact hfire.registerSend.callCallback
  · exact hfire.registerSend

/-- An answer that tells `NOEXP`. -/
example : (Trace.run step (create.init 3600 7) [.register true 0,
    .send ⟨7, some 3600⟩ .accepted false, .sendEnd,
    .answer 0 ⟨200, [], some ⟨noExp, by decide⟩, none⟩ 0 0 .accepted false]).map
      (·.noExpiration) = some true := rfl

end Sip.Registrant
