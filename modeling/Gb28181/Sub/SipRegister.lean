import Gb28181.Sip.Regc
import Gb28181.Sub.GlobalCtl

/-!
# Registration with an upper node

`SipRegister::gbRegister` of SipSubService: it formats the headers of a REGISTER, makes a
registration client for it and sends it.
-/

namespace Sub

open Lib Conf Sip

/-- The headers of a `SipMessage`. -/
structure SipMessage where
  fromHeader : Text
  toHeader : Text
  requestUrl : Text
  contact : Text
  deriving DecidableEq, Repr

/-- The transport that `gbRegister` names for a node; `"udp"` is the default of `setUrl`. -/
def urlProto (node : SupDomainInfo) : Text :=
  if node.protocal = 1 then "tcp".toList else "udp".toList

/-- What `gbRegister` formats. -/
def formatMessage (gConfig : SipLocalConfig SupNodeInfo) (node : SupDomainInfo) :
    Except Fault SipMessage := do
  let fromHeader ← setFrom gConfig.sipId gConfig.sipIp
  let toHeader ← setTo gConfig.sipId gConfig.sipIp
  let requestUrl ← setUrl node.sipId node.addrIp node.sipPort (urlProto node)
  let contact ← setContact gConfig.sipId gConfig.sipIp gConfig.sipPort
  return ⟨fromHeader, toHeader, requestUrl, contact⟩

/-- A REGISTER request. -/
structure Register where
  msg : SipMessage
  expires : Option ℤ
  deriving DecidableEq, Repr

/-- What a call of `gbRegister` did: its result, the request that it sent, and whether it left a
client behind. -/
structure Registered where
  ret : ℤ
  sent : Option Register
  live : Bool
  deriving DecidableEq, Repr

/-- A call that failed; the client, if there was one, is destroyed. -/
def failed : Registered := ⟨-1, none, false⟩

/-- `SipRegister::gbRegister`. -/
def gbRegister (regc : Regc) (gConfig : SipLocalConfig SupNodeInfo) (node : SupDomainInfo) :
    Except Fault Registered := do
  let msg ← formatMessage gConfig node
  if regc.create ≠ 0 then return failed
  else if regc.initStatus (toUInt32 node.expires) ≠ 0 then return failed
  else if regc.register ≠ 0 then return failed
  else if regc.send ≠ 0 then return failed
  else
    return ⟨0, some ⟨msg, setExpiresHdr expirationNotSpecified (toUInt32 node.expires)⟩, true⟩

/-- No call of the stack fails for a node. -/
def Succeeds (regc : Regc) (node : SupDomainInfo) : Prop :=
  regc.create = 0 ∧ regc.initStatus (toUInt32 node.expires) = 0 ∧ regc.register = 0 ∧ regc.send = 0

variable {regc : Regc} {gConfig : SipLocalConfig SupNodeInfo} {node : SupDomainInfo}
  {r : Registered} {req : Register}

/-- A call that succeeds sends a request and leaves a client behind, and one that fails does
neither. -/
lemma gbRegister_cases (h : gbRegister regc gConfig node = .ok r) :
    ∃ msg, formatMessage gConfig node = .ok msg ∧
      (¬ Succeeds regc node ∧ r = failed ∨ Succeeds regc node ∧ r = ⟨0,
        some ⟨msg, setExpiresHdr expirationNotSpecified (toUInt32 node.expires)⟩, true⟩) := by
  rw [gbRegister, bind_eq_ok] at h
  obtain ⟨msg, hmsg, h⟩ := h
  refine ⟨msg, hmsg, ?_⟩
  simp only [pure_eq_ok] at h
  split at h
  · next hcreate => exact Or.inl ⟨fun hs => hcreate hs.1, (Except.ok.inj h).symm⟩
  split at h
  · next hinit => exact Or.inl ⟨fun hs => hinit hs.2.1, (Except.ok.inj h).symm⟩
  split at h
  · next hregister => exact Or.inl ⟨fun hs => hregister hs.2.2.1, (Except.ok.inj h).symm⟩
  split at h
  · next hsend => exact Or.inl ⟨fun hs => hsend hs.2.2.2, (Except.ok.inj h).symm⟩
  · next hcreate hinit hregister hsend =>
    rw [not_not] at hcreate hinit hregister hsend
    exact Or.inr ⟨⟨hcreate, hinit, hregister, hsend⟩, (Except.ok.inj h).symm⟩

/-- A request that is sent has the Expires header of a new client, for an expiry that is not
0. -/
lemma expires_of_sent (h : gbRegister regc gConfig node = .ok r) (hsent : r.sent = some req) :
    toUInt32 node.expires ≠ 0 ∧
      req.expires = setExpiresHdr expirationNotSpecified (toUInt32 node.expires) := by
  obtain ⟨msg, -, ⟨-, rfl⟩ | ⟨⟨-, hinit, -⟩, rfl⟩⟩ := gbRegister_cases h
  · simp [failed] at hsent
  · obtain rfl := Option.some.inj hsent
    refine ⟨fun hzero => ?_, rfl⟩
    rw [hzero, Regc.initStatus, if_pos rfl] at hinit
    exact absurd hinit (by decide)

/-- If the headers fit and no call fails, a request is sent for every expiry but 0. -/
lemma gbRegister_of_format {msg : SipMessage} (hmsg : formatMessage gConfig node = .ok msg)
    (hexpires : toUInt32 node.expires ≠ 0) :
    gbRegister ⟨0, 0, 0, 0⟩ gConfig node =
      .ok ⟨0, some ⟨msg, setExpiresHdr expirationNotSpecified (toUInt32 node.expires)⟩, true⟩ := by
  simp [gbRegister, hmsg, Regc.initStatus, hexpires]

end Sub
