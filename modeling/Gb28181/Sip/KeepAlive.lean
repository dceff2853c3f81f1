import Gb28181.Sip.Refresh

/-!
# Answers that tell no expiration

A registrar that puts neither contacts nor an expiration into its answers leaves the client with
what it asked for: an hour, if it asked for nothing.  All its requests are alike then, and it goes
on as long as the answers are positive.
-/

namespace Sip

open Lib

/-- An answer that tells no expiration and does not ask for a longer one. -/
structure Response.Plain (resp : Response) : Prop where
  contacts : resp.contacts = []
  expires : resp.expires = none
  code : resp.code ≠ 423

/-- The expiration that a client with this Expires header takes as granted. -/
def granted (hdr : Option ℤ) : ℤ := hdr.getD 3600

variable {r : RegClient} {resp : Response} {hdr : Option ℤ}

lemma responseExpiration_plain (h : resp.Plain) (hop : r.currentOp = .registering) :
    r.responseExpiration resp = granted r.expiresHdr := by
  have hlowest : lowest [] = noExp := rfl
  simp only [RegClient.responseExpiration, if_pos hop, h.contacts, List.take_nil, List.any_nil,
    hlowest, Bool.false_eq_true, false_and, if_false, if_true]
  simp only [RegClient.unmatched, RegClient.fallback, h.expires, granted]

lemma responseExpiration_of_not_registering (hop : r.currentOp ≠ .registering) :
    r.responseExpiration resp = 0 := if_neg hop

namespace Registrant

/-- What is sent carries the Expires header `hdr`, and so will what is sent next. -/
structure Carries (hdr : Option ℤ) (s : Registrant) : Prop where
  expiresHdr : s.regc.expiresHdr = hdr
  requests : ∀ q ∈ s.requests, q.expires = hdr
  tsxs : ∀ q ∈ s.tsxs, q.expires = hdr

variable {s t : Registrant} {n : ℕ} {destroys : Bool} {taken : Taken} {tsx : TxData}
  {reinit register : ℤ}

lemma Carries.steady (h : Carries hdr s) (hs : Steady hdr s t) : Carries hdr t where
  expiresHdr := hs.expiresHdr.trans h.expiresHdr
  requests := fun q hq => (hs.requests q hq).elim (h.requests q) id
  tsxs := fun q hq => (hs.tsxs q hq).elim (h.tsxs q) id

lemma Carries.quiet (h : Carries hdr s) (hs : Quiet s t) : Carries hdr t where
  expiresHdr := hs.expiresHdr.trans h.expiresHdr
  requests := hs.requests ▸ h.requests
  tsxs := hs.tsxs ▸ h.tsxs

lemma Carries.tsxCallback (h : Carries hdr s) (htsx : tsx.expires = hdr) (hcode : resp.code ≠ 423) :
    Carries hdr (s.tsxCallback tsx resp reinit register taken destroys).1 := by
  have hs : Carries hdr ((s.enter.assert s.regc.hasTsx).setTsx false) :=
    h.quiet ⟨rfl, rfl, rfl, rfl, rfl⟩
  rw [Registrant.tsxCallback, Registrant.inCallback]
  refine Carries.quiet ?_ quiet_leave
  split_ifs with _ _ hbrief
  · exact hs.steady (htsx ▸ steady_challenged)
  · exact hs.quiet quiet_idle
  · exact absurd hbrief.1 hcode
  · exact hs.quiet quiet_handleErr

/-- The refresh that is scheduled comes in time if what is granted lasts six seconds at least. -/
structure Lasting (hdr : Option ℤ) (s : Registrant) : Prop where
  paced : Paced s
  carries : Carries hdr s
  timer : ∀ d, s.timer = some d → 0 < granted hdr ∧ (d < granted hdr ↔ 6 ≤ granted hdr)

/-- Nothing is scheduled. -/
lemma Ready.lasting (h : Ready s) (hs : Carries hdr s) (htimer : s.timer = none) : Lasting hdr s :=
  ⟨h.paced, hs, fun d hd => absurd hd (by simp [htimer])⟩

lemma Called.lasting (h : Called n s) (hflag : s.regc.deleteFlag = false)
    (htimer : s.timer = none) (hs : Ready s) (hcarries : Carries hdr s) (htsx : tsx.expires = hdr)
    (hresp : resp.Plain) :
    Lasting hdr (s.tsxCallback tsx resp reinit register taken false).1 := by
  obtain ⟨hpaced, hdelay⟩ := h.refresh hflag htimer hs tsx resp reinit register taken
  refine ⟨hpaced, hcarries.tsxCallback htsx hresp.code, fun d hd => ?_⟩
  have hgranted := hdelay d hd
  by_cases hop : s.regc.currentOp = .registering
  · rwa [responseExpiration_plain hresp hop, hcarries.expiresHdr] at hgranted
  · rw [responseExpiration_of_not_registering hop] at hgranted
    exact absurd hgranted.1 (Int.lt_irrefl 0)

/-! ### Positive answers -/

/-- The client is under way: it waits for an answer, or for its next refresh, which is there if what
is granted lasts at all. -/
structure Alive (hdr : Option ℤ) (s : Registrant) : Prop where
  autoReg : s.regc.autoReg = true
  registering : s.tsxs ≠ [] → hdr ≠ some 0 → s.regc.currentOp = .registering
  waits : s.tsxs ≠ [] ∨ (s.timer.isSome = true ↔ 0 < granted hdr)

/-- A request that the stack takes. -/
lemma alive_sendBegin {tdata : TxData} (hauto : s.regc.autoReg = true)
    (hexpires : tdata.expires = hdr) :
    Alive hdr (s.sendBegin tdata .accepted destroys).1 where
  autoReg := hauto
  registering := fun _ hne => if_neg (hexpires ▸ hne)
  waits := Or.inl (List.cons_ne_nil _ _)

lemma Alive.congr (h : Alive hdr s) (hauto : t.regc.autoReg = s.regc.autoReg)
    (hop : t.regc.currentOp = s.regc.currentOp) (htsxs : t.tsxs = s.tsxs)
    (htimer : t.timer = s.timer) : Alive hdr t :=
  ⟨hauto.trans h.autoReg, by rw [htsxs, hop]; exact h.registering,
    by rw [htsxs, htimer]; exact h.waits⟩

lemma Alive.leave (h : Alive hdr s) (hs : Active (n + 1) s) : Alive hdr s.leave := by
  rw [hs.leave_eq]
  exact h.congr rfl rfl rfl rfl

lemma Alive.sendReturn (h : Alive hdr s) (hs : Active 0 s) : Alive hdr s.sendReturn := by
  rw [Registrant.sendReturn]
  split
  · next hsending =>
    have halive : Alive hdr { s with sending := false } := h.congr rfl rfl rfl rfl
    exact halive.leave (hs.returning hsending)
  · exact h

/-- A positive answer. -/
lemma Called.alive (h : Called n s) (hflag : s.regc.deleteFlag = false) (htimer : s.timer = none)
    (hauto : s.regc.autoReg = true) (hhdr : s.regc.expiresHdr = hdr)
    (hop : hdr ≠ some 0 → s.regc.currentOp = .registering) (hresp : resp.Plain)
    (hcode : resp.code / 100 = 2) :
    Alive hdr (s.tsxCallback tsx resp reinit register taken false).1 := by
  have hbare := h.bare hflag htimer
  rw [h.tsxCallback_ok hflag htimer tsx reinit register hcode]
  generalize hu : (s.enter.assert s.regc.hasTsx).setTsx false = u at hbare ⊢
  have hupos : 0 < u.regc.responseExpiration resp ↔ 0 < granted hdr := by
    have hregc : u.regc.currentOp = s.regc.currentOp := hu ▸ rfl
    have hexpiresHdr : u.regc.expiresHdr = hdr := by rw [← hhdr, ← hu]; rfl
    by_cases hreg : s.regc.currentOp = .registering
    · rw [responseExpiration_plain hresp (hregc.trans hreg), hexpiresHdr]
    · have hzero : hdr = some 0 := by
        by_contra hne
        exact hreg (hop hne)
      rw [responseExpiration_of_not_registering (hregc ▸ hreg), hzero]
      rfl
  have huauto : u.regc.autoReg = true := by rw [← hauto, ← hu]; rfl
  have hactive := (hbare.assertExpiration (u.regc.responseExpiration resp)).schedule
    (u.regc.responseExpiration resp)
  rw [Registrant.handleErr, if_pos hcode]
  dsimp only
  rw [hactive.callCallback]
  refine Alive.leave ?_ hactive
  rw [Registrant.schedule]
  split
  · next hschedule =>
    refine ⟨huauto, fun hne => absurd hbare.tsxs hne, Or.inr ?_⟩
    exact iff_of_true rfl (hupos.1 hschedule.2)
  · next hschedule =>
    refine ⟨huauto, fun hne => absurd hbare.tsxs hne, Or.inr ?_⟩
    have hnone : ((u.assertExpiration (u.regc.responseExpiration resp)).touch.complete
        (u.regc.responseExpiration resp)).timer = none := hbare.timer
    rw [hnone]
    exact iff_of_false (by simp) fun hpos => hschedule ⟨huauto, hupos.2 hpos⟩

/-- A refresh. -/
lemma Active.alive (h : Active n s) (htsxs : s.tsxs = []) (hhdr : s.regc.expiresHdr = hdr) :
    Alive hdr (s.refreshTimerCb 0 .accepted false).1 := by
  have hbare : Bare (n + 1) (s.fire.register true 0) := (h.fire htsxs).register
  obtain ⟨-, hactive⟩ := hbare.sendBegin s.fire.request .accepted
  have halive : Alive hdr ((s.fire.register true 0).sendBegin s.fire.request .accepted false).1 :=
    alive_sendBegin rfl hhdr
  have hsend : s.fire.registerSend true 0 .accepted false =
      (((s.fire.register true 0).sendBegin s.fire.request .accepted false).1.leave, [], 0) := by
    rw [Registrant.registerSend, if_pos rfl, Registrant.send, if_neg (by rw [hbare.hasTsx]; simp)]
    rfl
  rw [Registrant.refreshTimerCb, hsend]
  exact (halive.leave hactive).leave hactive.leave

end Registrant

end Sip
