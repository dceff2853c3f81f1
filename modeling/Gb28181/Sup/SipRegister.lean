import Gb28181.Sip.Message
import Gb28181.Sup.GlobalCtl

/-!
# The registrar

`SipTaskBase::parseFromId` and `SipRegister` of SipSupService, and the path of a request from
`onRxRequest` through the thread of its task to `dealWithRegister`.  The id of a peer is cut out
of the printed From header at a fixed offset with a fixed length (`parseFromId_eq`), which is
the user part of its URI for some headers only.
-/

namespace Sup

open Lib Sip

/-- `std::string::substr`. -/
def substr (s : Text) (pos n : ℕ) : Except Fault Text :=
  if pos ≤ s.length then .ok ((s.drop pos).take n) else .error .outOfRange

/-- `SipTaskBase::parseFromId`. -/
def parseFromId (msg : Msg) : Except Fault Text :=
  match msg.fromHdr with
  | none => .ok []
  | some fromHdr =>
    let (size, buf) := fromHdr.printOn 1024
    if size > 0 then substr (buf.takeWhile (· != nul)) 11 20 else .ok []

/-- `SIP_SUCCESS`. -/
def sipSuccess : ℤ := 200

/-- `SIP_FORBIDDEN`. -/
def sipForbidden : ℤ := 404

/-- The results of the calls with which a response is made; 0 is `PJ_SUCCESS`. -/
structure Endpt where
  createResponse : ℤ
  getResponseAddr : ℤ
  sendResponse : ℤ

/-- The status that `dealWithRegister` returns once it has chosen its status code. -/
def respond (endpt : Endpt) : ℤ :=
  if endpt.createResponse ≠ 0 then endpt.createResponse
  else if endpt.getResponseAddr ≠ 0 then endpt.getResponseAddr
  else if endpt.sendResponse ≠ 0 then endpt.sendResponse
  else 0

/-- What a call of `dealWithRegister` did: the list afterwards, the arguments with which it
called `setExpires`, if it did, the status code of its response and its own result. -/
structure Dealt where
  list : List SubDomainInfo
  setExpiresArgs : Option (Text × ℤ)
  statusCode : ℤ
  status : ℤ

/-- `SipRegister::dealWithRegister`. -/
def dealWithRegister (endpt : Endpt) (list : List SubDomainInfo) (msg : Msg) :
    Except Fault Dealt := do
  let fromId ← parseFromId msg
  if !checkIsExist list fromId then return ⟨list, none, sipForbidden, respond endpt⟩
  else
    match msg.expires with
    | none => throw .nullDeref
    | some expiresValue =>
      return ⟨setExpires list fromId expiresValue, some (fromId, expiresValue), sipSuccess,
        respond endpt⟩

/-- `SipRegister::run`, on a pointer to the request. -/
def run (endpt : Endpt) (list : List SubDomainInfo) (rdata : Option Msg) : Except Fault Dealt :=
  match rdata with
  | none => .error .nullDeref
  | some msg => dealWithRegister endpt list msg

/-! ### From the event thread to the task -/

/-- The only subclass of `SipTaskBase`. -/
inductive SipTaskBase where
  | sipRegister
  deriving DecidableEq, Repr

/-- `threadParam`. -/
structure ThreadParam where
  base : Option SipTaskBase
  data : Option Msg

/-- The `threadParam` that `onRxRequest` makes; the result of `pjsip_rx_data_clone` is ignored,
and `data` stays null when it fails. -/
def threadParam (msg : Msg) (cloned : Bool) : ThreadParam where
  base := if msg.method = .register then some .sipRegister else none
  data := if cloned then some msg else none

/-- `onRxRequest`: the result and the parameter of the thread that it started.  `PJ_SUCCESS` as
a `pj_bool_t` is `PJ_FALSE`. -/
def onRxRequest (msg : Option Msg) (cloned threadCreated : Bool) : Bool × Option ThreadParam :=
  match msg with
  | none => (false, none)
  | some msg =>
    if threadCreated then (false, some (threadParam msg cloned))
    else (false, none)

/-- `SipCore::dealTaskThread`; `none` says that it returned without a task to run. -/
def dealTaskThread (endpt : Endpt) (list : List SubDomainInfo) (param : ThreadParam) :
    Except Fault (Option Dealt) :=
  match param.base with
  | none => .ok none
  | some .sipRegister => some <$> run endpt list param.data

/-- The way of a request through the service. -/
def process (endpt : Endpt) (list : List SubDomainInfo) (msg : Option Msg)
    (cloned threadCreated : Bool) : Except Fault (Option Dealt) :=
  match (onRxRequest msg cloned threadCreated).2 with
  | none => .ok none
  | some param => dealTaskThread endpt list param

/-! ### The id that is cut out of a header -/

/-- Where the window of 20 characters lies on a header that fits: at the address for a `sip`
URI without display name, one character earlier for `sips`, and four characters into a display
name. -/
def idWindow (h : FromHdr) : Text :=
  if 1024 ≤ h.text.length then []
  else
    match h.display, h.scheme with
    | [], .sip => h.address.take 20
    | [], .sips => (':' :: h.address).take 20
    | display, scheme =>
      ((display ++ ['"', ' ', '<'] ++ scheme.text ++ ':' :: h.address).drop 4).take 20

variable {endpt : Endpt} {list : List SubDomainInfo} {h : FromHdr} {m : Method} {e : Option ℤ}

lemma drop_text (h : FromHdr) (hfit : ¬ 1024 ≤ h.text.length) :
    (h.text.drop 11).take 20 = idWindow h := by
  have hname : h.text.drop 11 = (h.opening ++ h.address).drop 5 := by
    rw [FromHdr.text, show 11 = FromHdr.name.length + 5 from rfl, ← List.drop_drop,
      List.drop_left]
  rw [idWindow, if_neg hfit, hname, FromHdr.opening]
  rcases hd : h.display with _ | ⟨d, ds⟩
  · cases h.scheme <;> rfl
  · simp only [reduceCtorEq, if_false, List.cons_append, List.append_assoc, List.drop_succ_cons,
      List.nil_append]

/-- `parseFromId` never fails on a request with a From header. -/
theorem parseFromId_eq (m : Method) (h : FromHdr) (e : Option ℤ) :
    parseFromId ⟨m, some h, e⟩ = .ok (idWindow h) := by
  have hlen := h.length_text_ge
  simp only [parseFromId, FromHdr.printOn]
  by_cases hfit : h.text.length < 1024
  · have htake : h.text.takeWhile (· != nul) = h.text := by
      refine List.takeWhile_eq_self_iff.2 fun c hc => ?_
      rw [bne_iff_ne]
      rintro rfl
      exact h.nul_notMem_text hc
    have hpos : (h.text.length : ℤ) > 0 := by omega
    simp only [if_pos hfit, hpos, if_true, htake, substr, if_pos (show 11 ≤ h.text.length by omega),
      drop_text h (by omega)]
  · simp [hfit, idWindow, Nat.not_lt.1 hfit]

/-- The window is the user part if the header is `From: <sip:` with 20 characters of user. -/
lemma idWindow_eq_user (hfit : h.text.length < 1024) (hdisplay : h.display = [])
    (hscheme : h.scheme = .sip) (huser : h.user.length = 20) : idWindow h = h.user := by
  have hne : h.user ≠ [] := by
    intro h'
    simp [h'] at huser
  simp only [idWindow, if_neg (Nat.not_le.2 hfit), hdisplay, hscheme, FromHdr.address, if_neg hne,
    List.append_assoc, ← huser, List.take_left]

/-! ### Admission -/

lemma dealWithRegister_of_notMem (hid : idWindow h ∉ ids list) :
    dealWithRegister endpt list ⟨m, some h, e⟩ =
      .ok ⟨list, none, sipForbidden, respond endpt⟩ := by
  have hexist : checkIsExist list (idWindow h) = false := by
    rw [← Bool.not_eq_true, checkIsExist_iff]
    exact hid
  simp [dealWithRegister, parseFromId_eq, hexist]

lemma dealWithRegister_of_mem {v : ℤ} (hid : idWindow h ∈ ids list) :
    dealWithRegister endpt list ⟨m, some h, some v⟩ =
      .ok ⟨setExpires list (idWindow h) v, some (idWindow h, v), sipSuccess, respond endpt⟩ := by
  simp [dealWithRegister, parseFromId_eq, checkIsExist_iff.2 hid]

lemma dealWithRegister_of_expires_none (hid : idWindow h ∈ ids list) :
    dealWithRegister endpt list ⟨m, some h, none⟩ = .error .nullDeref := by
  simp [dealWithRegister, parseFromId_eq, checkIsExist_iff.2 hid]

/-- Only a configured user is admitted, and any other is refused and changes nothing. -/
structure SoundAdmission (endpt : Endpt) (list : List SubDomainInfo) (h : FromHdr)
    (e : Option ℤ) : Prop where
  admitted : ∀ r, dealWithRegister endpt list ⟨.register, some h, e⟩ = .ok r →
    r.statusCode = sipSuccess ∨ r.setExpiresArgs ≠ none → h.user ∈ ids list
  refused : h.user ∉ ids list → ∃ r,
    dealWithRegister endpt list ⟨.register, some h, e⟩ = .ok r ∧
      r.statusCode = sipForbidden ∧ r.setExpiresArgs = none ∧ r.list = list

/-- Admission is sound for a request exactly when its user is configured or the text in the
window is not. -/
theorem soundAdmission_iff (endpt : Endpt) (list : List SubDomainInfo) (h : FromHdr)
    (e : Option ℤ) :
    SoundAdmission endpt list h e ↔ h.user ∈ ids list ∨ idWindow h ∉ ids list := by
  constructor
  · intro hsound
    by_contra hnot
    rw [not_or, not_not] at hnot
    obtain ⟨huser, hid⟩ := hnot
    obtain ⟨r, hr, hcode, -⟩ := hsound.refused huser
    -- without an Expires header the call crashes, which is no refusal either
    cases e with
    | none => simp [dealWithRegister_of_expires_none hid] at hr
    | some v =>
      rw [dealWithRegister_of_mem hid, Except.ok.injEq] at hr
      subst hr
      exact absurd (show sipSuccess = sipForbidden from hcode) (by decide)
  · rintro (huser | hid)
    · exact ⟨fun _ _ _ => huser, fun h => absurd huser h⟩
    · have hr : dealWithRegister endpt list ⟨.register, some h, e⟩ =
          .ok ⟨list, none, sipForbidden, respond endpt⟩ := dealWithRegister_of_notMem hid
      refine ⟨fun r hr' hor => ?_, fun _ => ⟨_, hr, rfl, rfl, rfl⟩⟩
      obtain rfl := Except.ok.inj (hr.symm.trans hr')
      rcases hor with h | h
      · exact absurd (show sipForbidden = sipSuccess from h) (by decide)
      · exact absurd rfl h

/-- A registry of one node. -/
def oneNode : List SubDomainInfo := [{ sipId := "11000000002000000001".toList }]

/-- A From header whose user continues a configured id. -/
def longUserHdr : FromHdr where
  display := []
  scheme := .sip
  user := "110000000020000000012".toList
  passwd := []
  host := "10.0.0.9".toList
  params := ";tag=1".toList
  host_ne_nil := by decide
  nul_notMem := by decide

/-- The user of this header is not configured, but it is admitted. -/
theorem not_soundAdmission_longUserHdr :
    ¬ SoundAdmission ⟨0, 0, 0⟩ oneNode longUserHdr (some 3600) := by
  intro hsound
  have hid : idWindow longUserHdr ∈ ids oneNode := by decide
  have huser : longUserHdr.user ∈ ids oneNode :=
    hsound.admitted _ (dealWithRegister_of_mem hid) (Or.inl rfl)
  exact absurd huser (by decide)

/-! ### Null pointers -/

/-- A REGISTER is processed without a null pointer exactly when no task is started for it, or
its clone was made and it has an Expires header or is refused. -/
theorem process_no_nullDeref_iff (endpt : Endpt) (list : List SubDomainInfo) (h : FromHdr)
    (e : Option ℤ) (cloned threadCreated : Bool) :
    process endpt list (some ⟨.register, some h, e⟩) cloned threadCreated ≠ .error .nullDeref ↔
      threadCreated = false ∨ (cloned = true ∧ (idWindow h ∉ ids list ∨ e ≠ none)) := by
  cases threadCreated with
  | false => simp [process, onRxRequest]
  | true =>
    cases cloned with
    | false => simp [process, onRxRequest, dealTaskThread, threadParam, run]
    | true =>
      by_cases hid : idWindow h ∈ ids list
      · cases e with
        | none =>
          simp [process, onRxRequest, dealTaskThread, threadParam, run,
            dealWithRegister_of_expires_none hid, hid]
        | some v =>
          simp [process, onRxRequest, dealTaskThread, threadParam, run,
            dealWithRegister_of_mem hid]
      · simp [process, onRxRequest, dealTaskThread, threadParam, run,
          dealWithRegister_of_notMem hid, hid]

/-- A From header with a configured id. -/
def configuredHdr : FromHdr where
  display := []
  scheme := .sip
  user := "11000000002000000001".toList
  passwd := []
  host := "127.0.1".toList
  params := ";tag=1".toList
  host_ne_nil := by decide
  nul_notMem := by decide

/-- A REGISTER of a configured id without an Expires header crashes the registrar. -/
theorem process_nullDeref_configuredHdr :
    process ⟨0, 0, 0⟩ oneNode (some ⟨.register, some configuredHdr, none⟩) true true =
      .error .nullDeref := by
  have hid : idWindow configuredHdr ∈ ids oneNode := by decide
  simp [process, onRxRequest, dealTaskThread, threadParam, run,
    dealWithRegister_of_expires_none hid]

/-! ### Responses that fail -/

/-- A call that does not return `PJ_SUCCESS` leaves the registry as it was. -/
def FailureChangesNothing (endpt : Endpt) (list : List SubDomainInfo) (msg : Msg) : Prop :=
  ∀ r, dealWithRegister endpt list msg = .ok r → r.status ≠ 0 → r.list = list

/-- None of the calls with which a response is made fails. -/
def Endpt.Succeeds (endpt : Endpt) : Prop :=
  endpt.createResponse = 0 ∧ endpt.getResponseAddr = 0 ∧ endpt.sendResponse = 0

/-- The registry has for the id of the request no other expiry than that of the request. -/
def AlreadyStored (list : List SubDomainInfo) (msg : Msg) : Prop :=
  ∀ id v, parseFromId msg = .ok id → msg.expires = some v →
    ∀ w, expiresOf list id = some w → w = v

lemma respond_eq_zero_iff : respond endpt = 0 ↔ endpt.Succeeds := by
  rw [respond, Endpt.Succeeds]
  split
  · next h => exact iff_of_false h fun hs => h hs.1
  split
  · next h => exact iff_of_false h fun hs => h hs.2.1
  split
  · next h => exact iff_of_false h fun hs => h hs.2.2
  · next h₁ h₂ h₃ => exact iff_of_true rfl ⟨not_not.1 h₁, not_not.1 h₂, not_not.1 h₃⟩

/-- What a call that returns has done to the registry, whatever became of the response. -/
lemma dealWithRegister_eq_ok {msg : Msg} {r : Dealt}
    (h : dealWithRegister endpt list msg = .ok r) : r.status = respond endpt ∧
      ∃ id, parseFromId msg = .ok id ∧ (id ∉ ids list ∧ r.list = list ∨
        ∃ v, msg.expires = some v ∧ r.list = setExpires list id v) := by
  rw [dealWithRegister, bind_eq_ok] at h
  obtain ⟨id, hid, h⟩ := h
  split at h
  · next hno =>
    obtain rfl := Except.ok.inj h
    refine ⟨rfl, id, hid, Or.inl ⟨fun hmem => ?_, rfl⟩⟩
    rw [checkIsExist_iff.2 hmem] at hno
    exact Bool.false_ne_true hno
  · split at h
    · exact absurd h (by simp)
    · next v hv =>
      obtain rfl := Except.ok.inj h
      exact ⟨rfl, id, hid, Or.inr ⟨v, hv, rfl⟩⟩

/-- A request that fails changes nothing exactly when no call fails for it, or the registry has the
expiry of the request already or no entry for it. -/
theorem failureChangesNothing_iff (endpt : Endpt) (list : List SubDomainInfo) (msg : Msg) :
    FailureChangesNothing endpt list msg ↔ endpt.Succeeds ∨ AlreadyStored list msg := by
  constructor
  · intro h
    by_cases hendpt : endpt.Succeeds
    · exact Or.inl hendpt
    refine Or.inr fun id v hid hv => ?_
    have hstatus : respond endpt ≠ 0 := fun hzero => hendpt (respond_eq_zero_iff.1 hzero)
    by_cases hmem : id ∈ ids list
    · have hr : dealWithRegister endpt list msg =
          .ok ⟨setExpires list id v, some (id, v), sipSuccess, respond endpt⟩ := by
        simp [dealWithRegister, hid, checkIsExist_iff.2 hmem, hv]
      exact setExpires_eq_self_iff.1 (h _ hr hstatus)
    · intro w hw
      rw [expiresOf_of_notMem hmem] at hw
      exact absurd hw (by simp)
  · intro h r hr hstatus
    obtain ⟨hrespond, id, hid, ⟨-, hlist⟩ | ⟨v, hv, hlist⟩⟩ := dealWithRegister_eq_ok hr
    · exact hlist
    · rcases h with hendpt | hstored
      · exact absurd (hrespond.trans (respond_eq_zero_iff.2 hendpt)) hstatus
      · rw [hlist, setExpires_eq_self_iff]
        exact hstored id v hid hv

/-- `PJ_STATUS_FROM_OS(ENETUNREACH)`. -/
def netUnreachable : ℤ := 120101

/-- The response cannot be sent, and the device has got an hour. -/
theorem not_failureChangesNothing_unsent :
    ¬ FailureChangesNothing ⟨0, 0, netUnreachable⟩ oneNode
      ⟨.register, some configuredHdr, some 3600⟩ := by
  intro h
  have hid : idWindow configuredHdr ∈ ids oneNode := by decide
  have hlist := h _ (dealWithRegister_of_mem hid) (by decide)
  exact absurd hlist (by decide)

end Sup
