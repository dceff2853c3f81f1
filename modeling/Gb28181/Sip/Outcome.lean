import Gb28181.Sip.Registrant

/-!
# What becomes of a request

For a client that the application does not destroy in its callback: what is left after an answer
or a refresh, and which codes the callback gets.  Either another request is under way and the
callback was not called; or none is, and the code that the callback got first decides whether a
refresh is scheduled.  The callback can be called twice, when a request that the client sends
by itself fails for the lack of a transport; the second code never is 200.
-/

namespace Sip.Registrant

open Lib

/-- A client in use that has neither a transaction nor a timer. -/
structure Bare (n : ℕ) (s : Registrant) : Prop where
  held : Held n s
  deleteFlag : s.regc.deleteFlag = false
  tsxs : s.tsxs = []
  timer : s.timer = none

/-- A client that was not destroyed; while its transaction is pending, no refresh is scheduled. -/
structure Active (n : ℕ) (s : Registrant) : Prop where
  held : Held n s
  deleteFlag : s.regc.deleteFlag = false
  timer : s.tsxs ≠ [] → s.timer = none

/-- What is left after a function that may have called the callback, with the codes it got; `final`
is the code of the answer. -/
inductive Outcome (final : ℤ) (r : Registrant × List ℤ) : Prop
  /-- Nothing is scheduled, and the callback was not called. -/
  | silent (calls : r.2 = []) (timer : r.1.timer = none)
  /-- The operation is over, and a refresh is scheduled only after a 2xx answer, with whose code
  the callback was called first. -/
  | called (code : ℤ) (rest : List ℤ) (calls : r.2 = code :: rest) (again : 200 ∉ rest)
      (tsxs : r.1.tsxs = []) (timer : r.1.timer.isSome = true → code = final ∧ code / 100 = 2)

/-- The same for one that returns a status. -/
inductive SendOutcome (r : Registrant × List ℤ × ℤ) : Prop
  | accepted (status : r.2.2 = 0) (calls : r.2.1 = []) (timer : r.1.timer = none)
  | failed (status : r.2.2 ≠ 0) (calls : r.2.1 = [] ∨ r.2.1 = [502] ∨ r.2.1 = [503])
      (tsxs : r.1.tsxs = []) (timer : r.1.timer = none)

variable {s : Registrant} {n : ℕ} {code : ℤ} {taken : Taken} {tdata : TxData} {resp : Response}

lemma Bare.active (h : Bare n s) : Active n s := ⟨h.held, h.deleteFlag, fun _ => h.timer⟩

lemma Bare.hasTsx (h : Bare n s) : s.regc.hasTsx = false := by
  have hlen := h.held.tsxs
  rw [h.tsxs] at hlen
  cases hb : s.regc.hasTsx with
  | false => rfl
  | true => rw [hb] at hlen; exact absurd hlen (by decide)

lemma Bare.cb (h : Bare n s) : s.regc.cb = true := by rw [h.held.cb, h.deleteFlag]; rfl

/-- A change of fields that do not matter here. -/
lemma Bare.congr (h : Bare n s) {r : RegClient} (hbusy : r.busyCtr = s.regc.busyCtr)
    (htsx : r.hasTsx = s.regc.hasTsx) (htimer : r.timerId = s.regc.timerId) (hcb : r.cb = s.regc.cb)
    (hflag : r.deleteFlag = s.regc.deleteFlag) : Bare n { s with regc := r } :=
  ⟨h.held.congr hbusy htsx htimer hcb hflag, hflag.trans h.deleteFlag, h.tsxs, h.timer⟩

lemma Bare.idle (h : Bare n s) : Bare n s.idle := by
  rw [Registrant.idle, h.held.update]
  exact h.congr rfl rfl rfl rfl rfl

lemma Bare.complete {expiration : ℤ} (h : Bare n s) : Bare n (s.complete expiration) := by
  rw [Registrant.complete, h.held.update]
  exact h.congr rfl rfl rfl rfl rfl

lemma Bare.register {autoReg : Bool} {status : ℤ} (h : Bare n s) :
    Bare n (s.register autoReg status) := by
  refine ⟨h.held.register, ?_, ?_, ?_⟩
  · rw [Registrant.register]
    split <;> exact h.deleteFlag
  · exact quiet_register.tsxs.trans h.tsxs
  · rw [Registrant.register]
    split
    · simp [Registrant.update, Registrant.cancelTimer, Registrant.touch, h.timer]
    · exact h.timer

/-- A callback that does not destroy the client. -/
lemma Active.callCallback (h : Active n s) : s.callCallback false code = (s, [code]) := by
  have hcb : s.regc.cb = true := by rw [h.held.cb, h.deleteFlag]; rfl
  rw [Registrant.callCallback, if_pos hcb, h.held.touch]
  rfl

/-- Leaving a function of a client that was not destroyed. -/
lemma Active.leave_eq (h : Active (n + 1) s) :
    s.leave = { s with regc := { s.regc with busyCtr := s.regc.busyCtr - 1 } } := by
  have hflag : ¬ (s.regc.busyCtr - 1 = 0 ∧ s.regc.deleteFlag = true) := by
    rw [h.deleteFlag]
    simp
  rw [Registrant.leave, h.held.update]
  exact if_neg hflag

lemma Active.leave (h : Active (n + 1) s) : Active n s.leave := by
  have hbusy := h.held.busy
  rw [h.leave_eq]
  exact ⟨⟨h.held.fault, h.held.released, by simp only [hbusy]; omega, h.held.tsxs, h.held.timer,
    h.held.cb⟩, h.deleteFlag, h.timer⟩

lemma Bare.leave (h : Bare (n + 1) s) : Bare n s.leave := by
  have hleave := h.active.leave
  have heq := h.active.leave_eq
  exact ⟨hleave.held, hleave.deleteFlag, by rw [heq]; exact h.tsxs, by rw [heq]; exact h.timer⟩

lemma Bare.assertExpiration (h : Bare n s) (expiration : ℤ) :
    Bare n (s.assertExpiration expiration) :=
  ⟨h.held.assertExpiration, h.deleteFlag, h.tsxs, h.timer⟩

/-- A positive answer may schedule a refresh. -/
lemma Bare.schedule (h : Bare n s) (expiration : ℤ) :
    Active n ((s.schedule expiration).complete expiration) := by
  refine ⟨h.held.schedule.complete, ?_, fun htsxs => absurd ?_ htsxs⟩
  · rw [Registrant.schedule]
    split <;> exact h.deleteFlag
  · exact (quiet_schedule.trans quiet_complete).tsxs.trans h.tsxs

/-- A response that the client does not handle by itself ends the operation. -/
lemma Bare.handleErr (h : Bare n s) (resp : Response) :
    (s.handleErr resp false).2 = [resp.code] ∧ (s.handleErr resp false).1.tsxs = [] ∧
    Active n (s.handleErr resp false).1 ∧
    ((s.handleErr resp false).1.timer.isSome = true → resp.code / 100 = 2) := by
  rw [Registrant.handleErr]
  split
  · next hcode =>
    have hactive := (h.assertExpiration (s.regc.responseExpiration resp)).schedule
      (s.regc.responseExpiration resp)
    rw [hactive.callCallback]
    exact ⟨rfl, (quiet_schedule.trans quiet_complete).tsxs.trans h.tsxs, hactive, fun _ => hcode⟩
  · rw [h.complete.active.callCallback]
    refine ⟨rfl, h.complete.tsxs, h.complete.active, fun ht => ?_⟩
    rw [h.complete.timer] at ht
    exact absurd ht (by decide)

/-- A response that is not a 2xx one leaves nothing behind. -/
lemma Bare.handleErr_bare (h : Bare n s) (resp : Response) (hcode : resp.code / 100 ≠ 2) :
    Bare n (s.handleErr resp false).1 := by
  rw [Registrant.handleErr, if_neg hcode, h.complete.active.callCallback]
  exact h.complete

/-! ### Sending -/

/-- What the body of a callback starts from, if nothing is scheduled. -/
lemma Called.bare (h : Called n s) (hflag : s.regc.deleteFlag = false) (htimer : s.timer = none) :
    Bare (n + 1) ((s.enter.assert s.regc.hasTsx).setTsx false) :=
  ⟨h.held, hflag, h.tsxs, htimer⟩

/-- A request for which there is no transport. -/
lemma Called.inCallback_ofCode (h : Called (n + 1) s) (hflag : s.regc.deleteFlag = false)
    (htimer : s.timer = none) (code : ℤ) (hcode : code / 100 ≠ 2) :
    (s.inCallback fun s => s.handle (.ofCode code) false).2 = [code] ∧
      Bare (n + 1) ((s.inCallback fun s => s.handle (.ofCode code) false).1.setTsx false) := by
  have hbare := h.bare hflag htimer
  have hhandle : ((s.enter.assert s.regc.hasTsx).setTsx false).handle (.ofCode code) false =
      ((s.enter.assert s.regc.hasTsx).setTsx false).handleErr (.ofCode code) false := by
    rw [Registrant.handle, if_neg (by rw [hbare.deleteFlag]; simp)]
  rw [Registrant.inCallback]
  dsimp only
  rw [hhandle]
  refine ⟨(hbare.handleErr (.ofCode code)).1, ?_⟩
  have hleave := (hbare.handleErr_bare (.ofCode code) hcode).leave
  have hset : Held (n + 1) _ := hleave.held.setTsx hleave.tsxs
  exact ⟨hset, hleave.deleteFlag, hleave.tsxs, hleave.timer⟩

lemma Bare.sendBegin (h : Bare n s) (tdata : TxData) (taken : Taken) :
    SendOutcome (s.sendBegin tdata taken false) ∧
      Active (n + 1) (s.sendBegin tdata taken false).1 := by
  have htsx : s.enter.regc.hasTsx = false := h.hasTsx
  have hcalled : Called (n + 1) (s.enter.begin tdata) := h.held.enter.begin htsx
  have hflag : (s.enter.begin tdata).regc.deleteFlag = false := h.deleteFlag
  have htimer : (s.enter.begin tdata).timer = none := h.timer
  have hheld : Held (n + 1) (s.sendBegin tdata taken false).1 := h.held.sendBegin h.hasTsx
  cases taken with
  | accepted => exact ⟨.accepted rfl rfl h.timer, hheld, h.deleteFlag, fun _ => h.timer⟩
  | refused status =>
    exact ⟨.failed status.2 (Or.inl rfl) h.tsxs h.timer, hheld, h.deleteFlag, fun _ => h.timer⟩
  | unresolved status =>
    obtain ⟨hcalls, hbare⟩ := hcalled.inCallback_ofCode hflag htimer 502 (by decide)
    exact ⟨.failed status.2 (Or.inr (Or.inl hcalls)) hbare.tsxs hbare.timer, hbare.active⟩
  | transportError status =>
    obtain ⟨hcalls, hbare⟩ := hcalled.inCallback_ofCode hflag htimer 503 (by decide)
    exact ⟨.failed status.2 (Or.inr (Or.inr hcalls)) hbare.tsxs hbare.timer, hbare.active⟩

lemma Bare.send (h : Bare (n + 1) s) (tdata : TxData) (taken : Taken) :
    SendOutcome (s.send tdata taken false) ∧ Active (n + 1) (s.send tdata taken false).1 := by
  obtain ⟨hout, hactive⟩ := h.sendBegin tdata taken
  have hleave := hactive.leave_eq
  rw [Registrant.send, if_neg (by rw [h.hasTsx]; simp)]
  refine ⟨?_, hactive.leave⟩
  cases hout with
  | accepted status calls timer => exact .accepted status calls (by simp only [hleave]; exact timer)
  | failed status calls tsxs timer =>
    exact .failed status calls (by simp only [hleave]; exact tsxs)
      (by simp only [hleave]; exact timer)

lemma Bare.registerSend (h : Bare (n + 1) s) (autoReg : Bool) (status : ℤ) (taken : Taken) :
    SendOutcome (s.registerSend autoReg status taken false) ∧
      Active (n + 1) (s.registerSend autoReg status taken false).1 := by
  rw [Registrant.registerSend]
  split
  · exact h.register.send _ _
  · next hstatus =>
    exact ⟨.failed hstatus (Or.inl rfl) h.register.tsxs h.register.timer, h.register.active⟩

/-- A request that failed is reported after the code that its own callback got. -/
lemma SendOutcome.report {r : Registrant × List ℤ × ℤ} (h : SendOutcome r) (hr : Active n r.1)
    (hcode : code ≠ 200) :
    Outcome code (report r false code) ∧ Active n (report r false code).1 := by
  cases h with
  | accepted status calls timer =>
    rw [Registrant.report, if_neg (fun hc => hc.1 status), hr.held.touch]
    exact ⟨.silent calls timer, hr⟩
  | failed status calls tsxs timer =>
    rw [Registrant.report, if_pos ⟨status, hr.deleteFlag⟩, hr.callCallback]
    refine ⟨?_, hr⟩
    have hnone : ∀ c : ℤ, r.1.timer.isSome = true → c = code ∧ c / 100 = 2 := by simp [timer]
    rcases calls with hc | hc | hc
    · exact .called code [] (by simp [hc]) (by simp) tsxs (hnone _)
    · exact .called 502 [code] (by simp [hc]) (by simpa using hcode.symm) tsxs (hnone _)
    · exact .called 503 [code] (by simp [hc]) (by simpa using hcode.symm) tsxs (hnone _)

/-! ### Answers and refreshes -/

lemma Bare.outcome_handleErr (h : Bare n s) :
    Outcome resp.code (s.handleErr resp false) ∧ Active n (s.handleErr resp false).1 := by
  obtain ⟨hcalls, htsxs, hactive, htimer⟩ := h.handleErr resp
  exact ⟨.called resp.code [] hcalls (by simp) htsxs fun ht => ⟨rfl, htimer ht⟩, hactive⟩

lemma Bare.challenged {tsx : TxData} {reinit : ℤ} (h : Bare (n + 1) s) (hcode : code ≠ 200) :
    Outcome code (s.challenged tsx code reinit taken false) ∧
      Active (n + 1) (s.challenged tsx code reinit taken false).1 := by
  rw [Registrant.challenged]
  split
  · obtain ⟨hout, hactive⟩ := h.idle.send tsx taken
    exact hout.report hactive hcode
  · next hreinit =>
    exact SendOutcome.report (.failed hreinit (Or.inl rfl) h.idle.tsxs h.idle.timer) h.idle.active
      hcode

lemma Bare.tooBrief {register : ℤ} (h : Bare (n + 1) s) (hcode : resp.code ≠ 200) :
    Outcome resp.code (s.tooBrief resp register taken false) ∧
      Active (n + 1) (s.tooBrief resp register taken false).1 := by
  rw [Registrant.tooBrief]
  split
  · exact h.idle.outcome_handleErr
  · next minExp _ =>
    have hbare : Bare (n + 1) (s.idle.update fun r =>
        { r with expiresHdr := setExpiresHdr r.expires (toUInt32 minExp) }) := by
      rw [h.idle.held.update]
      exact h.idle.congr rfl rfl rfl rfl rfl
    obtain ⟨hout, hactive⟩ := hbare.registerSend _ register taken
    exact hout.report hactive hcode

/-- What is left when a thread leaves. -/
lemma Outcome.leave {r : Registrant × List ℤ} (h : Outcome code r) (hr : Active (n + 1) r.1) :
    Outcome code (r.1.leave, r.2) := by
  have hleave := hr.leave_eq
  cases h with
  | silent calls timer => exact .silent calls (by simp only [hleave]; exact timer)
  | called code rest calls again tsxs timer =>
    exact .called code rest calls again (by simp only [hleave]; exact tsxs)
      (by simp only [hleave]; exact timer)

/-- What an answer leaves, if nothing was scheduled while it was awaited. -/
theorem Called.outcome (h : Called n s) (hflag : s.regc.deleteFlag = false)
    (htimer : s.timer = none) (tsx : TxData) (resp : Response) (reinit register : ℤ)
    (taken : Taken) :
    Outcome resp.code (s.tsxCallback tsx resp reinit register taken false) ∧
      Active n (s.tsxCallback tsx resp reinit register taken false).1 := by
  have hbare := h.bare hflag htimer
  have hbody : ∀ r : Registrant × List ℤ, Outcome resp.code r ∧ Active (n + 1) r.1 →
      Outcome resp.code (r.1.leave, r.2) ∧ Active n r.1.leave :=
    fun r hr => ⟨hr.1.leave hr.2, hr.2.leave⟩
  refine hbody _ ?_
  dsimp only
  split
  · next hchallenge => exact hbare.challenged (by rcases hchallenge with hc | hc <;> simp [hc])
  · rw [if_neg (by rw [hbare.deleteFlag]; simp)]
    split
    · next hbrief => exact hbare.tooBrief (by simp [hbrief.1])
    · exact hbare.outcome_handleErr

lemma Active.fire (h : Active n s) (htsxs : s.tsxs = []) : Bare (n + 1) s.fire :=
  ⟨h.held.fire, h.deleteFlag, htsxs, rfl⟩

/-- What a refresh leaves. -/
theorem Active.outcome (h : Active n s) (htsxs : s.tsxs = []) (register : ℤ) (taken : Taken) :
    Outcome 400 (s.refreshTimerCb register taken false) ∧
      Active n (s.refreshTimerCb register taken false).1 := by
  obtain ⟨hout, hactive⟩ := (h.fire htsxs).registerSend true register taken
  have hreport := hout.report hactive (by decide : (400 : ℤ) ≠ 200)
  rw [Registrant.refreshTimerCb]
  rw [Registrant.report, hactive.callCallback, hactive.held.touch] at hreport
  by_cases hstatus : (s.fire.registerSend true register taken false).2.2 = 0
  · rw [if_neg (fun hc => hc.1 hstatus)] at hreport
    rw [if_neg (fun hc => hc hstatus)]
    simp only [List.append_nil]
    exact ⟨hreport.1.leave hreport.2, hreport.2.leave⟩
  · rw [if_pos ⟨hstatus, hactive.deleteFlag⟩] at hreport
    rw [if_pos hstatus, hactive.callCallback]
    exact ⟨hreport.1.leave hreport.2, hreport.2.leave⟩

/-! ### A client in the hands of the application -/

/-- A client that is released, and to which nobody will call back. -/
structure Gone (s : Registrant) : Prop where
  fault : s.fault = false
  released : s.released = true
  tsxs : s.tsxs = []
  timer : s.timer = none

lemma bare_create : Bare 0 create := ⟨held_create, rfl, rfl, rfl⟩

lemma Bare.init {expires cseq : ℕ} (h : Bare n s) : Bare n (s.init expires cseq) :=
  ⟨h.held.init, h.deleteFlag, h.tsxs, h.timer⟩

/-- A client without a transaction is released at once. -/
lemma Bare.gone_destroy (h : Bare 0 s) (hsending : s.sending = false) : Gone s.destroy := by
  have hbusy := h.held.busy
  rw [hsending] at hbusy
  rw [Registrant.destroy, if_neg (by simp [h.hasTsx, hbusy])]
  refine ⟨?_, rfl, h.tsxs, ?_⟩
  · simp [Registrant.cancelTimer, Registrant.update, Registrant.touch, h.held.fault,
      h.held.released]
  · simp [Registrant.cancelTimer, h.timer]

lemma Bare.sendCall (h : Bare 0 s) (hsending : s.sending = false) (tdata : TxData)
    (taken : Taken) : SendOutcome (s.sendCall tdata taken false) ∧
      Active 0 (s.sendCall tdata taken false).1 := by
  obtain ⟨hout, hactive⟩ := h.sendBegin tdata taken
  have hbusy := hactive.held.busy
  rw [sending_sendBegin, hsending] at hbusy
  rw [Registrant.sendCall, if_neg (by rw [h.hasTsx]; simp)]
  refine ⟨?_, ⟨hactive.held.fault, hactive.held.released, hbusy, hactive.held.tsxs,
    hactive.held.timer, hactive.held.cb⟩, hactive.deleteFlag, hactive.timer⟩
  cases hout with
  | accepted status calls timer => exact .accepted status calls timer
  | failed status calls tsxs timer => exact .failed status calls tsxs timer

/-- `pjsip_regc_send` before its end counts as a function of the client. -/
lemma Active.returning (h : Active 0 s) (hsending : s.sending = true) :
    Active 1 { s with sending := false } := by
  have hbusy := h.held.busy
  rw [hsending] at hbusy
  exact ⟨⟨h.held.fault, h.held.released, hbusy, h.held.tsxs, h.held.timer, h.held.cb⟩,
    h.deleteFlag, h.timer⟩

/-- The end of `pjsip_regc_send` changes nothing else. -/
lemma Active.sendReturn (h : Active 0 s) : Active 0 s.sendReturn ∧ s.sendReturn.sending = false ∧
    s.sendReturn.tsxs = s.tsxs ∧ s.sendReturn.timer = s.timer := by
  rw [Registrant.sendReturn]
  split
  · next hsending =>
    have hactive := h.returning hsending
    have heq := hactive.leave_eq
    exact ⟨hactive.leave, by rw [heq], by rw [heq], by rw [heq]⟩
  · next hsending => exact ⟨h, by simpa using hsending, rfl, rfl⟩

lemma SendOutcome.timer_eq {r : Registrant × List ℤ × ℤ} (h : SendOutcome r) :
    r.1.timer = none := by
  cases h with
  | accepted _ _ timer => exact timer
  | failed _ _ _ timer => exact timer

lemma SendOutcome.outcome {r : Registrant × List ℤ × ℤ} (h : SendOutcome r) (code : ℤ) :
    Outcome code (r.1, r.2.1) := by
  cases h with
  | accepted status calls timer => exact .silent calls timer
  | failed status calls tsxs timer =>
    rcases calls with hc | hc | hc
    · exact .silent hc timer
    · exact .called 502 [] hc (by simp) tsxs (by simp [timer])
    · exact .called 503 [] hc (by simp) tsxs (by simp [timer])

end Sip.Registrant
