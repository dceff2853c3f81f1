import Gb28181.Lib.Trace
import Gb28181.Sip.Regc

/-!
# The registration client at work

A `pjsip_regc` from `pjsip_regc_init` on: what its functions do to it, to the transaction layer
and to the timer heap.  A function that holds the lock of the client is one step, together with
the sending of a request by a thread that holds it; only `pjsip_regc_send` on behalf of the
application is two steps, since the lock is released while the request is handed to the stack and
the answer may come before the function returns.  `regc_refresh_timer_cb` holds no lock by itself;
it is one step for an application that does not use the client while this callback runs.

What the stack decides is a part of the steps: the results of its calls, the answers, and whether
the application calls `pjsip_regc_destroy` in its callback.  It makes no other call there (the one
of SipSubService makes none).
-/

namespace Sip

open Lib

/-- `regc_op`. -/
inductive RegcOp where
  | idle
  | registering
  | unregistering
  deriving DecidableEq, Repr

/-- A REGISTER: the CSeq and Expires headers of a `pjsip_tx_data`. -/
structure TxData where
  cseq : ℕ
  expires : Option ℤ
  deriving DecidableEq, Repr

/-- `struct pjsip_regc`.  `cb` and `timerId` say whether `cb` is not `NULL` and `timer.id` not 0,
`contactCnt` is the length of `contact_hdr_list`, and `cseq` goes on where `pj_int32_t` ends. -/
structure RegClient where
  deleteFlag : Bool
  hasTsx : Bool
  busyCtr : ℕ
  currentOp : RegcOp
  cb : Bool
  cseq : ℕ
  contactCnt : ℕ
  expiresHdr : Option ℤ
  expires : ℕ
  delayBeforeRefresh : ℕ
  autoReg : Bool
  timerId : Bool
  deriving DecidableEq, Repr

/-- `DELAY_BEFORE_REFRESH`. -/
def defaultDelayBeforeRefresh : ℕ := 5

/-- `PJSIP_EBUSY`. -/
def ebusy : ℤ := 171001

/-- `NOEXP`. -/
def noExp : ℤ := 0x1FFFFFFF

/-- `pjsip_regc_create`. -/
def RegClient.create : RegClient where
  deleteFlag := false
  hasTsx := false
  busyCtr := 0
  currentOp := .idle
  cb := true
  cseq := 0
  contactCnt := 0
  expiresHdr := none
  expires := expirationNotSpecified
  delayBeforeRefresh := 0
  autoReg := false
  timerId := false

/-- `pjsip_regc_init` with one contact; `cseq` is what `pj_rand` makes of the CSeq header. -/
def RegClient.init (r : RegClient) (expires cseq : ℕ) : RegClient :=
  { r with
    contactCnt := 1
    expiresHdr := setExpiresHdr r.expires expires
    delayBeforeRefresh := defaultDelayBeforeRefresh
    cseq := cseq }

instance (z : ℤ) : Decidable (IsInt32 z) := inferInstanceAs (Decidable (_ ∧ _))

/-- `pj_int32_t`. -/
abbrev PjInt32 : Type := { z : ℤ // IsInt32 z }

/-- A Contact header of a response: whether it matches one of the client, and its `expires`. -/
structure Contact where
  matched : Bool
  expires : PjInt32
  deriving DecidableEq

/-- A final response, or the status code with which the transaction layer ends a transaction. -/
structure Response where
  code : ℤ
  contacts : List Contact
  expires : Option PjInt32
  minExpires : Option PjInt32
  deriving DecidableEq

/-- An end of a transaction without a response. -/
def Response.ofCode (code : ℤ) : Response := ⟨code, [], none, none⟩

/-- None of the expirations of a response is `NOEXP`. -/
structure Response.Usual (resp : Response) : Prop where
  contacts : ∀ contact ∈ resp.contacts, contact.expires.1 ≠ noExp
  expires : ∀ ivalue ∈ resp.expires, ivalue.1 ≠ noExp
  minExpires : ∀ ivalue ∈ resp.minExpires, ivalue.1 ≠ noExp

/-! ### Expiration -/

/-- The expiration if the contacts of the response do not tell it. -/
def RegClient.fallback (r : RegClient) (resp : Response) : ℤ :=
  match resp.expires with
  | some ivalue => ivalue
  | none => r.expiresHdr.getD 3600

/-- The lowest expiration of the contacts that match. -/
def lowest (contacts : List Contact) : ℤ :=
  contacts.foldl (fun expiration contact =>
    if contact.matched ∧ 0 ≤ contact.expires.1 ∧ contact.expires.1 < expiration then
      contact.expires.1
    else expiration) noExp

/-- The expiration if no contact matches: that of the first contact, if there are as many as the
client has. -/
def RegClient.unmatched (r : RegClient) (contacts : List Contact) (resp : Response) : ℤ :=
  match contacts with
  | [] => r.fallback resp
  | contact :: _ =>
    if contacts.length = r.contactCnt ∧ 0 ≤ contact.expires.1 then contact.expires
    else r.fallback resp

/-- `calculate_response_expiration`, with `PJSIP_REGC_MAX_CONTACT` contacts; its assertion is
`assertExpiration` below. -/
def RegClient.responseExpiration (r : RegClient) (resp : Response) : ℤ :=
  if r.currentOp = .registering then
    let contacts := resp.contacts.take 10
    let expiration :=
      if contacts.any Contact.matched ∧ lowest contacts = noExp then r.fallback resp
      else lowest contacts
    if expiration = noExp then r.unmatched contacts resp else expiration
  else 0

/-- The delay that `schedule_registration` sets, in seconds.  The difference of a signed and an
unsigned number is unsigned. -/
def RegClient.refreshDelay (r : RegClient) (expiration : ℤ) : ℤ :=
  let delay : ℤ := toUInt32 (expiration - r.delayBeforeRefresh)
  let delay :=
    if r.expires ≠ expirationNotSpecified ∧ wrap32 r.expires < delay then (r.expires : ℤ)
    else delay
  if delay < defaultDelayBeforeRefresh then defaultDelayBeforeRefresh else delay

/-! ### The client and the stack -/

/-- A client with what the stack holds for it: the requests (`tsx->last_tx`) of the transactions
whose callback is still to come, and its entry in the timer heap.  `released` says that its memory
is released, `sending` that the application is in `pjsip_regc_send`; `fault` is set when memory
that is released is used, or `has_tsx` is asserted and not set, `noExpiration` when the assertion
at the end of `calculate_response_expiration` fails.  `requests` is the history of the requests
that were handed to the stack, the last one first. -/
structure Registrant where
  regc : RegClient
  released : Bool
  tsxs : List TxData
  timer : Option ℤ
  sending : Bool
  requests : List TxData
  fault : Bool
  noExpiration : Bool
  deriving DecidableEq, Repr

/-- A client that has just been created. -/
def Registrant.create : Registrant := ⟨.create, false, [], none, false, [], false, false⟩

/-- A result of a call that is not `PJ_SUCCESS`. -/
abbrev ErrorStatus : Type := { status : ℤ // status ≠ 0 }

/-- What `pjsip_endpt_send_request` does with a request: it takes it, and calls back later; it
refuses it; or it finds no address or no transport for it, and calls back before it returns. -/
inductive Taken where
  | accepted
  | refused (status : ErrorStatus)
  | unresolved (status : ErrorStatus)
  | transportError (status : ErrorStatus)
  deriving DecidableEq, Repr

namespace Registrant

variable (s : Registrant)

/-- An access to the memory of the client. -/
def touch : Registrant := { s with fault := s.fault || s.released }

/-- An assertion. -/
def assert (b : Bool) : Registrant := { s with fault := s.fault || !b }

/-- A change of the fields of the client. -/
def update (f : RegClient → RegClient) : Registrant := { s.touch with regc := f s.regc }

/-- `pjsip_regc_init`, if it succeeds. -/
def init (expires cseq : ℕ) : Registrant := s.update fun r => r.init expires cseq

/-- Some thread is in a function of the client. -/
def enter : Registrant := s.update fun r => { r with busyCtr := r.busyCtr + 1 }

/-- `current_op` is reset. -/
def idle : Registrant := s.update fun r => { r with currentOp := .idle }

/-- `has_tsx` is set. -/
def setTsx (b : Bool) : Registrant := s.update fun r => { r with hasTsx := b }

/-- `pjsip_endpt_cancel_timer`, if `timer.id` is not 0. -/
def cancelTimer : Registrant :=
  { s.update fun r => { r with timerId := false } with
    timer := if s.regc.timerId then none else s.timer }

/-- `pjsip_regc_destroy`. -/
def destroy : Registrant :=
  if s.regc.hasTsx ∨ s.regc.busyCtr ≠ 0 then
    s.update fun r => { r with deleteFlag := true, cb := false }
  else { s.cancelTimer with released := true }

/-- A thread leaves the function, and deletes the client if it is the last one and the
application has destroyed it. -/
def leave : Registrant :=
  let s := s.update fun r => { r with busyCtr := r.busyCtr - 1 }
  if s.regc.busyCtr = 0 ∧ s.regc.deleteFlag then s.destroy else s

/-- `call_callback`; with `destroys` the application destroys the client in its callback. -/
def callCallback (destroys : Bool) (code : ℤ) : Registrant × List ℤ :=
  if s.regc.cb then (if destroys then s.touch.destroy else s.touch, [code]) else (s.touch, [])

/-- `schedule_registration`. -/
def schedule (expiration : ℤ) : Registrant :=
  if s.regc.autoReg ∧ 0 < expiration then
    { s.update fun r => { r with timerId := true } with
      timer := some (s.regc.refreshDelay expiration) }
  else s.touch

/-- The operation is complete, with an expiration or without. -/
def complete (expiration : ℤ) : Registrant :=
  s.update fun r => { r with
    expires := toUInt32 (if expiration = noExp then -1 else expiration), currentOp := .idle }

/-- `pj_assert(expiration != NOEXP)`. -/
def assertExpiration (expiration : ℤ) : Registrant :=
  { s with noExpiration := s.noExpiration || expiration = noExp }

/-- `regc_tsx_callback` for a response that it does not handle by itself. -/
def handleErr (resp : Response) (destroys : Bool) : Registrant × List ℤ :=
  if resp.code / 100 = 2 then
    let expiration := s.regc.responseExpiration resp
    (((s.assertExpiration expiration).schedule expiration).complete expiration).callCallback
      destroys resp.code
  else (s.complete noExp).callCallback destroys resp.code

/-- The same after `pjsip_regc_destroy`. -/
def handle (resp : Response) (destroys : Bool) : Registrant × List ℤ :=
  if s.regc.deleteFlag then (s.idle, []) else s.handleErr resp destroys

/-- The beginning and the end of `regc_tsx_callback`. -/
def inCallback (body : Registrant → Registrant × List ℤ) : Registrant × List ℤ :=
  let r := body ((s.enter.assert s.regc.hasTsx).setTsx false)
  (r.1.leave, r.2)

/-- The locked part of `pjsip_regc_send`, without a pending transaction. -/
def begin (tdata : TxData) : Registrant :=
  { s.update fun r => { r with
      cseq := r.cseq + 1
      hasTsx := true
      currentOp := if tdata.expires = some 0 then .unregistering else .registering } with
    requests := ⟨s.regc.cseq + 1, tdata.expires⟩ :: s.requests }

/-- `pjsip_endpt_send_request`, with the status that it returns. -/
def endptSend (tdata : TxData) (taken : Taken) (destroys : Bool) : Registrant × List ℤ × ℤ :=
  match taken with
  | .accepted => ({ s with tsxs := tdata :: s.tsxs }, [], 0)
  | .refused status => (s.setTsx false, [], status)
  | .unresolved status =>
    let r := s.inCallback fun s => s.handle (.ofCode 502) destroys
    (r.1.setTsx false, r.2, status)
  | .transportError status =>
    let r := s.inCallback fun s => s.handle (.ofCode 503) destroys
    (r.1.setTsx false, r.2, status)

/-- `pjsip_regc_send` up to the result of `pjsip_endpt_send_request`. -/
def sendBegin (tdata : TxData) (taken : Taken) (destroys : Bool) : Registrant × List ℤ × ℤ :=
  (s.enter.begin tdata).endptSend ⟨s.regc.cseq + 1, tdata.expires⟩ taken destroys

/-- `pjsip_regc_send` as a whole, with its result. -/
def send (tdata : TxData) (taken : Taken) (destroys : Bool) : Registrant × List ℤ × ℤ :=
  if s.regc.hasTsx then (s.touch, [], ebusy)
  else
    let r := s.sendBegin tdata taken destroys
    (r.1.leave, r.2)

/-- `pjsip_regc_send` on behalf of the application, before its last step. -/
def sendCall (tdata : TxData) (taken : Taken) (destroys : Bool) : Registrant × List ℤ × ℤ :=
  if s.regc.hasTsx then (s.touch, [], ebusy)
  else
    let r := s.sendBegin tdata taken destroys
    ({ r.1 with sending := true }, r.2)

/-- The last step of `pjsip_regc_send`, unless the client was busy. -/
def sendReturn : Registrant := if s.sending then { s with sending := false }.leave else s

/-- The request that `pjsip_regc_register` makes. -/
def request : TxData := ⟨s.regc.cseq, s.regc.expiresHdr⟩

/-- `pjsip_regc_register`; `status` is the result of `create_request`. -/
def register (autoReg : Bool) (status : ℤ) : Registrant :=
  if status = 0 then s.cancelTimer.update fun r => { r with autoReg := autoReg } else s.touch

/-- `pjsip_regc_register` and, if it succeeds, `pjsip_regc_send`. -/
def registerSend (autoReg : Bool) (status : ℤ) (taken : Taken) (destroys : Bool) :
    Registrant × List ℤ × ℤ :=
  if status = 0 then (s.register autoReg status).send s.request taken destroys
  else (s.register autoReg status, [], status)

/-- A result that is not `PJ_SUCCESS` is reported to an application that is still interested. -/
def report (r : Registrant × List ℤ × ℤ) (destroys : Bool) (code : ℤ) : Registrant × List ℤ :=
  if r.2.2 ≠ 0 ∧ r.1.regc.deleteFlag = false then
    let r' := r.1.callCallback destroys code
    (r'.1, r.2.1 ++ r'.2)
  else (r.1.touch, r.2.1)

/-- `regc_tsx_callback` for a challenge; `reinit` is the result of
`pjsip_auth_clt_reinit_req`. -/
def challenged (tsx : TxData) (code reinit : ℤ) (taken : Taken) (destroys : Bool) :
    Registrant × List ℤ :=
  report (if reinit = 0 then s.idle.send tsx taken destroys else (s.idle, [], reinit)) destroys
    code

/-- The expiration that the client requests after a 423 response, if it tries again. -/
def minExpires (resp : Response) : Option ℤ :=
  let requested : Option ℤ :=
    match resp.minExpires with
    | some ivalue => some ivalue.1
    | none => if s.regc.expiresHdr = some 3601 then none else some 3601
  requested.filter fun minExp => !s.regc.expiresHdr.any fun ivalue => minExp ≤ ivalue

/-- `regc_tsx_callback` for a 423 response. -/
def tooBrief (resp : Response) (register : ℤ) (taken : Taken) (destroys : Bool) :
    Registrant × List ℤ :=
  match s.minExpires resp with
  | none => s.idle.handleErr resp destroys
  | some minExp =>
    let s := s.idle.update fun r =>
      { r with expiresHdr := setExpiresHdr r.expires (toUInt32 minExp) }
    report (s.registerSend s.regc.autoReg register taken destroys) destroys resp.code

/-- `regc_tsx_callback`; `tsx` is the request of the transaction. -/
def tsxCallback (tsx : TxData) (resp : Response) (reinit register : ℤ) (taken : Taken)
    (destroys : Bool) : Registrant × List ℤ :=
  s.inCallback fun s =>
    if resp.code = 407 ∨ resp.code = 401 then s.challenged tsx resp.code reinit taken destroys
    else if s.regc.deleteFlag then (s.idle, [])
    else if resp.code = 423 ∧ s.regc.currentOp = .registering then
      s.tooBrief resp register taken destroys
    else s.handleErr resp destroys

/-- The timer heap takes the entry of the client out and calls `regc_refresh_timer_cb`. -/
def fire : Registrant :=
  { s.enter.update fun r => { r with timerId := false } with timer := none }

/-- `regc_refresh_timer_cb`. -/
def refreshTimerCb (register : ℤ) (taken : Taken) (destroys : Bool) : Registrant × List ℤ :=
  let r := s.fire.registerSend true register taken destroys
  let r' := if r.2.2 ≠ 0 then r.1.callCallback destroys 400 else (r.1, [])
  (r'.1.leave, r.2.1 ++ r'.2)

end Registrant

end Sip
