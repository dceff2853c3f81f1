import Gb28181.Sip.Outcome

/-!
# When a client refreshes

The delay before a refresh is computed from the expiration with unsigned arithmetic and then cut
to the last expiration and to `DELAY_BEFORE_REFRESH` at least.  The refresh comes before the
registration expires exactly if that is more than five seconds ahead; for one to four seconds
the difference even wraps around.
-/

namespace Sip

open Lib

/-- The `expires` field of a client that may register: not specified, or a time. -/
def Fresh (expires : ℕ) : Prop :=
  expires = expirationNotSpecified ∨ (0 < expires ∧ expires < 2 ^ 31)

variable {r : RegClient} {expiration : ℤ}

lemma toUInt32_sub {margin : ℕ} (hpos : 0 < expiration) (h32 : IsInt32 expiration)
    (hmargin : margin = defaultDelayBeforeRefresh) :
    (toUInt32 (expiration - margin) : ℤ) =
      if 5 ≤ expiration then expiration - 5 else 2 ^ 32 + expiration - 5 := by
  obtain ⟨-, hlt⟩ := h32
  rw [hmargin, defaultDelayBeforeRefresh, toUInt32]
  split <;> omega

/-- The refresh comes before the registration expires if and only if it lasts six seconds at
least. -/
theorem refreshDelay_lt_iff (hpos : 0 < expiration) (h32 : IsInt32 expiration)
    (hmargin : r.delayBeforeRefresh = defaultDelayBeforeRefresh) (hfresh : Fresh r.expires) :
    r.refreshDelay expiration < expiration ↔ 6 ≤ expiration := by
  have hwrap : r.expires ≠ expirationNotSpecified → wrap32 r.expires = r.expires := by
    intro hne
    obtain ⟨-, hlt⟩ := hfresh.resolve_left hne
    exact wrap32_of_isInt32 ⟨by omega, by omega⟩
  have hdelay : (defaultDelayBeforeRefresh : ℤ) = 5 := rfl
  rw [RegClient.refreshDelay, toUInt32_sub hpos h32 hmargin, hdelay]
  by_cases hspec : r.expires = expirationNotSpecified
  · have hcut : ∀ d : ℤ, (if r.expires ≠ expirationNotSpecified ∧ wrap32 r.expires < d then
        (r.expires : ℤ) else d) = d := fun d => if_neg fun hc => hc.1 hspec
    simp only [hcut]
    split <;> split <;> omega
  · have hpos' := hfresh.resolve_left hspec
    simp only [hwrap hspec, ne_eq, hspec, not_false_eq_true, true_and]
    split <;> split <;> split <;> omega

/-- The lowest expiration is a 32-bit value. -/
lemma isInt32_lowest (contacts : List Contact) : IsInt32 (lowest contacts) := by
  have hfold : ∀ (contacts : List Contact) (m : ℤ), IsInt32 m →
      IsInt32 (contacts.foldl (fun expiration contact =>
        if contact.matched ∧ 0 ≤ contact.expires.1 ∧ contact.expires.1 < expiration then
          contact.expires.1
        else expiration) m) := by
    intro contacts
    induction contacts with
    | nil => exact fun m hm => hm
    | cons contact contacts ih =>
      intro m hm
      refine ih _ ?_
      dsimp only
      split
      · exact contact.expires.2
      · exact hm
  exact hfold contacts noExp (by decide)

/-- So is the expiration of a response. -/
lemma isInt32_responseExpiration (hhdr : ∀ v ∈ r.expiresHdr, IsInt32 v) (resp : Response) :
    IsInt32 (r.responseExpiration resp) := by
  have hfallback : IsInt32 (r.fallback resp) := by
    rw [RegClient.fallback]
    split
    · next ivalue _ => exact ivalue.2
    · cases hv : r.expiresHdr with
      | none => exact (by decide : IsInt32 3600)
      | some v => exact hhdr v hv
  have hunmatched : ∀ contacts, IsInt32 (r.unmatched contacts resp) := by
    intro contacts
    cases contacts with
    | nil => exact hfallback
    | cons contact contacts =>
      rw [RegClient.unmatched]
      split
      · exact contact.expires.2
      · exact hfallback
  simp only [RegClient.responseExpiration]
  split_ifs
  · exact hunmatched _
  · exact hfallback
  · exact hunmatched _
  · exact isInt32_lowest _
  · decide

/-! ### What stays the same -/

namespace Registrant

/-- The settings of the client are unchanged, it has not learnt a new expiration, and what it has
sent carries the Expires header `hdr`. -/
structure Steady (hdr : Option ℤ) (s s' : Registrant) : Prop where
  margin : s'.regc.delayBeforeRefresh = s.regc.delayBeforeRefresh
  expiresHdr : s'.regc.expiresHdr = s.regc.expiresHdr
  expires : s'.regc.expires = s.regc.expires ∨ s'.regc.expires = expirationNotSpecified
  requests : ∀ q ∈ s'.requests, q ∈ s.requests ∨ q.expires = hdr
  tsxs : ∀ q ∈ s'.tsxs, q ∈ s.tsxs ∨ q.expires = hdr

variable {s t u : Registrant} {n : ℕ} {hdr : Option ℤ} {destroys : Bool} {code : ℤ}
  {taken : Taken} {tdata : TxData} {resp : Response}

lemma Steady.trans (h : Steady hdr s t) (h' : Steady hdr t u) : Steady hdr s u where
  margin := h'.margin.trans h.margin
  expiresHdr := h'.expiresHdr.trans h.expiresHdr
  expires := h'.expires.elim (fun hx => hx ▸ h.expires) Or.inr
  requests := fun q hq => (h'.requests q hq).elim (h.requests q) Or.inr
  tsxs := fun q hq => (h'.tsxs q hq).elim (h.tsxs q) Or.inr

/-- A change of fields that do not matter here. -/
lemma steady_of_eq (hmargin : t.regc.delayBeforeRefresh = s.regc.delayBeforeRefresh)
    (hhdr : t.regc.expiresHdr = s.regc.expiresHdr) (hexpires : t.regc.expires = s.regc.expires)
    (hrequests : t.requests = s.requests) (htsxs : t.tsxs = s.tsxs) : Steady hdr s t :=
  ⟨hmargin, hhdr, Or.inl hexpires, fun _ hq => Or.inl (hrequests ▸ hq),
    fun _ hq => Or.inl (htsxs ▸ hq)⟩

lemma steady_destroy : Steady hdr s s.destroy := by
  rw [Registrant.destroy]
  split <;> exact steady_of_eq rfl rfl rfl rfl rfl

lemma steady_leave : Steady hdr s s.leave := by
  rw [Registrant.leave]
  generalize hu : s.update _ = u
  have hs : Steady hdr s u := hu ▸ steady_of_eq rfl rfl rfl rfl rfl
  split
  · exact hs.trans steady_destroy
  · exact hs

lemma steady_callCallback : Steady hdr s (s.callCallback destroys code).1 := by
  rw [Registrant.callCallback]
  split
  · cases destroys with
    | true =>
      have hs : Steady hdr s s.touch := steady_of_eq rfl rfl rfl rfl rfl
      exact hs.trans steady_destroy
    | false => exact steady_of_eq rfl rfl rfl rfl rfl
  · exact steady_of_eq rfl rfl rfl rfl rfl

/-- A response that is not a 2xx one: the expiration is forgotten. -/
lemma steady_handleErr (hcode : resp.code / 100 ≠ 2) :
    Steady hdr s (s.handleErr resp destroys).1 := by
  have hs : Steady hdr s (s.complete noExp) :=
    ⟨rfl, rfl, Or.inr rfl, fun _ hq => Or.inl hq, fun _ hq => Or.inl hq⟩
  rw [Registrant.handleErr, if_neg hcode]
  exact hs.trans steady_callCallback

lemma steady_inCallback {body : Registrant → Registrant × List ℤ}
    (hbody : ∀ s, Steady hdr s (body s).1) : Steady hdr s (s.inCallback body).1 := by
  have hs : Steady hdr s ((s.enter.assert s.regc.hasTsx).setTsx false) :=
    steady_of_eq rfl rfl rfl rfl rfl
  exact hs.trans ((hbody _).trans steady_leave)

lemma steady_idle : Steady hdr s s.idle := steady_of_eq rfl rfl rfl rfl rfl

lemma steady_handle (hcode : code / 100 ≠ 2) :
    Steady hdr s (s.handle (.ofCode code) destroys).1 := by
  rw [Registrant.handle]
  split
  · exact steady_idle
  · exact steady_handleErr hcode

/-- A request that is sent carries the header of its data. -/
lemma steady_sendBegin : Steady tdata.expires s (s.sendBegin tdata taken destroys).1 := by
  have hbegin : Steady tdata.expires s (s.enter.begin tdata) := by
    refine ⟨rfl, rfl, Or.inl rfl, fun q hq => ?_, fun _ hq => Or.inl hq⟩
    exact (List.mem_cons.1 hq).elim (fun hq => Or.inr (hq ▸ rfl)) Or.inl
  have hfail : ∀ code : ℤ, code / 100 ≠ 2 → Steady tdata.expires s
      (((s.enter.begin tdata).inCallback fun s => s.handle (.ofCode code) destroys).1.setTsx
        false) := by
    intro code hcode
    have hhandle : ∀ s : Registrant,
        Steady tdata.expires s (s.handle (.ofCode code) destroys).1 := fun s => steady_handle hcode
    refine (hbegin.trans (steady_inCallback hhandle)).trans ?_
    exact steady_of_eq rfl rfl rfl rfl rfl
  cases taken with
  | accepted =>
    refine ⟨rfl, rfl, Or.inl rfl, hbegin.requests, fun q hq => ?_⟩
    exact (List.mem_cons.1 hq).elim (fun hq => Or.inr (hq ▸ rfl)) Or.inl
  | refused status =>
    have hset : Steady tdata.expires (s.enter.begin tdata) ((s.enter.begin tdata).setTsx false) :=
      steady_of_eq rfl rfl rfl rfl rfl
    exact hbegin.trans hset
  | unresolved status => exact hfail 502 (by decide)
  | transportError status => exact hfail 503 (by decide)

lemma steady_send : Steady tdata.expires s (s.send tdata taken destroys).1 := by
  rw [Registrant.send]
  split
  · exact steady_of_eq rfl rfl rfl rfl rfl
  · exact steady_sendBegin.trans steady_leave

lemma steady_register {autoReg : Bool} {status : ℤ} :
    Steady hdr s (s.register autoReg status) := by
  rw [Registrant.register]
  split <;> exact steady_of_eq rfl rfl rfl rfl rfl

lemma steady_registerSend {autoReg : Bool} {status : ℤ} :
    Steady s.regc.expiresHdr s (s.registerSend autoReg status taken destroys).1 := by
  rw [Registrant.registerSend]
  split
  · have hsend : Steady s.request.expires (s.register autoReg status)
        ((s.register autoReg status).send s.request taken destroys).1 := steady_send
    exact steady_register.trans hsend
  · exact steady_register

lemma steady_report {r : Registrant × List ℤ × ℤ} :
    Steady hdr r.1 (report r destroys code).1 := by
  rw [Registrant.report]
  split
  · exact steady_callCallback
  · exact steady_of_eq rfl rfl rfl rfl rfl

lemma steady_challenged {tsx : TxData} {reinit : ℤ} :
    Steady tsx.expires s (s.challenged tsx code reinit taken destroys).1 := by
  rw [Registrant.challenged]
  refine Steady.trans ?_ steady_report
  split
  · exact steady_idle.trans steady_send
  · exact steady_idle

lemma steady_sendCall : Steady tdata.expires s (s.sendCall tdata taken destroys).1 := by
  rw [Registrant.sendCall]
  split
  · exact steady_of_eq rfl rfl rfl rfl rfl
  · exact steady_sendBegin.trans (steady_of_eq rfl rfl rfl rfl rfl)

lemma steady_sendReturn : Steady hdr s s.sendReturn := by
  rw [Registrant.sendReturn]
  split
  · have hs : Steady hdr s { s with sending := false } := steady_of_eq rfl rfl rfl rfl rfl
    exact hs.trans steady_leave
  · exact steady_of_eq rfl rfl rfl rfl rfl

lemma steady_refreshTimerCb {register : ℤ} :
    Steady s.regc.expiresHdr s (s.refreshTimerCb register taken destroys).1 := by
  have hfire : Steady s.regc.expiresHdr s s.fire := steady_of_eq rfl rfl rfl rfl rfl
  have hsend : Steady s.regc.expiresHdr s
      (s.fire.registerSend true register taken destroys).1 :=
    hfire.trans (steady_registerSend (s := s.fire))
  rw [Registrant.refreshTimerCb]
  refine Steady.trans ?_ steady_leave
  split
  · exact hsend.trans steady_callCallback
  · exact hsend

/-! ### Refreshes -/

/-- The client is initialised, and the expiration that it keeps is a valid one. -/
structure Ready (s : Registrant) : Prop where
  margin : s.regc.delayBeforeRefresh = defaultDelayBeforeRefresh
  expiresHdr : ∀ v ∈ s.regc.expiresHdr, IsInt32 v
  fresh : Fresh s.regc.expires

/-- The same, as long as something is outstanding or scheduled. -/
structure Paced (s : Registrant) : Prop where
  margin : s.regc.delayBeforeRefresh = defaultDelayBeforeRefresh
  expiresHdr : ∀ v ∈ s.regc.expiresHdr, IsInt32 v
  fresh : s.tsxs ≠ [] ∨ s.timer.isSome = true → Fresh s.regc.expires

lemma Ready.paced (h : Ready s) : Paced s := ⟨h.margin, h.expiresHdr, fun _ => h.fresh⟩

lemma Paced.ready (h : Paced s) (hwait : s.tsxs ≠ [] ∨ s.timer.isSome = true) : Ready s :=
  ⟨h.margin, h.expiresHdr, h.fresh hwait⟩

lemma Paced.sendReturn (h : Paced reg) (hactive : Active 0 reg) : Paced reg.sendReturn := by
  obtain ⟨-, -, htsxs, htimer⟩ := hactive.sendReturn
  have hs : Steady none reg reg.sendReturn := steady_sendReturn
  refine ⟨hs.margin.trans h.margin, hs.expiresHdr ▸ h.expiresHdr, fun hwait => ?_⟩
  have hfresh := h.fresh (by rwa [htsxs, htimer] at hwait)
  exact hs.expires.elim (fun hx => hx ▸ hfresh) Or.inl

/-- If it learns no expiration, a client stays ready. -/
lemma Steady.ready (h : Steady hdr s t) (hs : Ready s) : Ready t where
  margin := h.margin.trans hs.margin
  expiresHdr := h.expiresHdr ▸ hs.expiresHdr
  fresh := h.expires.elim (fun hx => hx ▸ hs.fresh) Or.inl

/-- A header that the client is told to send. -/
lemma isInt32_setExpiresHdr (current expires : ℕ) :
    ∀ v ∈ setExpiresHdr current expires, IsInt32 v := by
  intro v hv
  rw [setExpiresHdr] at hv
  split at hv
  · exact Option.some.inj hv ▸ isInt32_wrap32 _
  · simp at hv

lemma ready_init {expires cseq : ℕ} : Ready (create.init expires cseq) where
  margin := rfl
  expiresHdr := isInt32_setExpiresHdr _ _
  fresh := Or.inl rfl

lemma fresh_toUInt32 (hpos : 0 < expiration) (h32 : IsInt32 expiration) :
    Fresh (toUInt32 expiration) := by
  obtain ⟨-, hlt⟩ := h32
  refine Or.inr ?_
  rw [toUInt32]
  omega

/-- A 2xx response: the refresh is scheduled, if at all, for the expiration that it tells. -/
lemma Bare.handleErr_timer (h : Bare n s) (hs : Ready s) (hcode : resp.code / 100 = 2) :
    Paced (s.handleErr resp false).1 ∧ ∀ d, (s.handleErr resp false).1.timer = some d →
      0 < s.regc.responseExpiration resp ∧ d = s.regc.refreshDelay (s.regc.responseExpiration resp)
    := by
  have h32 := isInt32_responseExpiration hs.expiresHdr resp
  rw [Registrant.handleErr, if_pos hcode]
  dsimp only
  rw [((h.assertExpiration _).schedule _).callCallback]
  by_cases hschedule : s.regc.autoReg = true ∧ 0 < s.regc.responseExpiration resp
  · rw [Registrant.schedule, regc_assertExpiration, if_pos hschedule]
    refine ⟨⟨hs.margin, hs.expiresHdr, fun _ => ?_⟩, fun d hd => ?_⟩
    · have hexp : ∀ t : Registrant, (t.complete (s.regc.responseExpiration resp)).regc.expires =
          toUInt32 (if s.regc.responseExpiration resp = noExp then -1
            else s.regc.responseExpiration resp) := fun _ => rfl
      rw [hexp]
      split
      · exact Or.inl rfl
      · exact fresh_toUInt32 hschedule.2 h32
    · exact ⟨hschedule.2, (Option.some.inj hd).symm⟩
  · rw [Registrant.schedule, regc_assertExpiration, if_neg hschedule]
    have hnone : ((s.assertExpiration (s.regc.responseExpiration resp)).touch.complete
        (s.regc.responseExpiration resp)).timer = none := h.timer
    refine ⟨⟨hs.margin, hs.expiresHdr, fun hwait => ?_⟩, fun d hd => ?_⟩
    · rcases hwait with hwait | hwait
      · exact absurd h.tsxs hwait
      · exact absurd hwait (by simp [hnone])
    · exact absurd hd (by simp [hnone])

lemma Ready.tooBrief {register : ℤ} (hs : Ready s) (hcode : resp.code / 100 ≠ 2) :
    Ready (s.tooBrief resp register taken destroys).1 := by
  rw [Registrant.tooBrief]
  split
  · have herr : Steady none s (s.idle.handleErr resp destroys).1 :=
      steady_idle.trans (steady_handleErr hcode)
    exact herr.ready hs
  · next minExp _ =>
    have hset : Ready (s.idle.update fun r =>
        { r with expiresHdr := setExpiresHdr r.expires (toUInt32 minExp) }) :=
      ⟨hs.margin, isInt32_setExpiresHdr _ _, hs.fresh⟩
    exact (steady_registerSend.trans steady_report).ready hset

/-- An answer that is not a 2xx one. -/
lemma Ready.tsxCallback {tsx : TxData} {reinit register : ℤ} (hs : Ready s)
    (hcode : resp.code / 100 ≠ 2) :
    Ready (s.tsxCallback tsx resp reinit register taken destroys).1 := by
  have hs' : Ready ((s.enter.assert s.regc.hasTsx).setTsx false) :=
    ⟨hs.margin, hs.expiresHdr, hs.fresh⟩
  rw [Registrant.tsxCallback, Registrant.inCallback]
  have hleave : ∀ s : Registrant, Steady none s s.leave := fun _ => steady_leave
  refine (hleave _).ready ?_
  split_ifs
  · exact steady_challenged.ready hs'
  · have hidle : ∀ s : Registrant, Steady none s s.idle := fun _ => steady_idle
    exact (hidle _).ready hs'
  · exact hs'.tooBrief hcode
  · have herr : ∀ s : Registrant, Steady none s (s.handleErr resp destroys).1 :=
      fun _ => steady_handleErr hcode
    exact (herr _).ready hs'

/-- A 2xx answer is handled by `handle_err` alone. -/
lemma Called.tsxCallback_ok (h : Called n s) (hflag : s.regc.deleteFlag = false)
    (htimer : s.timer = none) (tsx : TxData) (reinit register : ℤ) (hcode : resp.code / 100 = 2) :
    (s.tsxCallback tsx resp reinit register taken false).1 =
      (((s.enter.assert s.regc.hasTsx).setTsx false).handleErr resp false).1.leave := by
  have hbare := h.bare hflag htimer
  rw [Registrant.tsxCallback, Registrant.inCallback, if_neg (by omega),
    if_neg (by rw [hbare.deleteFlag]; simp), if_neg (by omega)]

/-- An answer keeps the client paced, and the refresh that it schedules comes before the
registration expires if and only if that takes six seconds at least. -/
theorem Called.refresh (h : Called n s) (hflag : s.regc.deleteFlag = false)
    (htimer : s.timer = none) (hs : Ready s) (tsx : TxData) (resp : Response)
    (reinit register : ℤ) (taken : Taken) :
    Paced (s.tsxCallback tsx resp reinit register taken false).1 ∧
      ∀ d, (s.tsxCallback tsx resp reinit register taken false).1.timer = some d →
        0 < s.regc.responseExpiration resp ∧
          (d < s.regc.responseExpiration resp ↔ 6 ≤ s.regc.responseExpiration resp) := by
  have hbare := h.bare hflag htimer
  by_cases hcode : resp.code / 100 = 2
  · have hs' : Ready ((s.enter.assert s.regc.hasTsx).setTsx false) :=
      ⟨hs.margin, hs.expiresHdr, hs.fresh⟩
    obtain ⟨hpaced, hdelay⟩ := hbare.handleErr_timer hs' hcode
    obtain ⟨-, -, hact, -⟩ := hbare.handleErr resp
    have hleave := hact.leave_eq
    rw [h.tsxCallback_ok hflag htimer tsx reinit register hcode, hleave]
    refine ⟨⟨hpaced.margin, hpaced.expiresHdr, hpaced.fresh⟩, fun d hd => ?_⟩
    obtain ⟨hpos, rfl⟩ := hdelay d hd
    exact ⟨hpos, refreshDelay_lt_iff hpos (isInt32_responseExpiration hs.expiresHdr resp)
      hs.margin hs.fresh⟩
  · obtain ⟨hout, -⟩ := h.outcome hflag htimer tsx resp reinit register taken
    refine ⟨(hs.tsxCallback hcode).paced, fun d hd => ?_⟩
    cases hout with
    | silent calls timer => exact absurd hd (by simp [timer])
    | called code rest calls again tsxs timer =>
      obtain ⟨rfl, hcode'⟩ := timer (by rw [hd]; rfl)
      exact absurd hcode' hcode

end Registrant

end Sip
