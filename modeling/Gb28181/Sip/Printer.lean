import Gb28181.Sip.Parser
import Gb28181.Sip.Regc

/-!
# The text of SIP URIs and of From and To headers

What `pjsip_url_print`, `pjsip_name_addr_print` and `pjsip_fromto_hdr_print` write into a buffer
that is large enough.
-/

namespace Sip.Wire

open Lib

/-- `pjsip_uri_context_e`. -/
inductive Context where
  | reqUri
  | fromtoHdr
  | contactHdr
  | routingHdr
  | other
  deriving DecidableEq, Repr

/-- `pj_strncpy2_escape`. -/
def escape (unres : Char → Bool) (s : Text) : Text := Percent.encode unres s

/-- The value of a parameter as `pjsip_param_print_on` writes it. -/
def valueText (p : Char → Bool) (value : Text) : Text :=
  if cur value = '"' then value else escape p value

/-- A parameter with the character that stands before it; `name` and `value` are as on the wire. -/
def paramText (sep : Char) (name value : Text) : Text :=
  sep :: (name ++ if value = [] then [] else '=' :: value)

/-- `pjsip_param_print_on`. -/
def printParams (p : Char → Bool) : Char → List Param → Text
  | _, [] => []
  | sep, q :: params =>
    paramText sep (escape p q.name) (valueText p q.value) ++
      printParams p (if sep = '?' then '&' else sep) params

/-- `copy_advance_pair` with a value that is written as `text`. -/
def pairText (name text : Text) : Text := if text = [] then [] else paramText ';' name text

/-- A host or an address: an IPv6 address is put in brackets. -/
def hostText (host : Text) : Text :=
  if ':' ∈ host ∧ cur host ≠ '[' then '[' :: (host ++ [']']) else host

/-- How an `maddr` parameter is written. -/
def maddrText (maddr : Text) : Text :=
  if ':' ∈ maddr then hostText maddr else escape paramCharSpec maddr

namespace SipUri

variable (ctx : Context) (url : SipUri)

/-- The scheme, with the colon. -/
def schemeText : Text := (if url.secure then "sips".toList else "sip".toList) ++ [':']

/-- `user:password@`. -/
def userText : Text :=
  if url.user = [] then []
  else escape userSpec url.user ++
    ((if url.passwd = [] then [] else ':' :: escape passwdSpec url.passwd) ++ ['@'])

/-- The port, which is left out in From and To headers. -/
def portText : Text :=
  if url.port ≠ 0 ∧ ctx ≠ .fromtoHdr then ':' :: utoa url.port.toNat else []

/-- The method is only written in other contexts. -/
def methodText : Text := if ctx = .other then escape paramCharSpec url.method_param else []

/-- The transport is left out in From and To headers. -/
def transportText : Text :=
  if ctx ≠ .fromtoHdr then escape paramCharSpec url.transport_param else []

/-- The TTL is left out in From, To, Route and Record-Route headers. -/
def ttlText : Text :=
  if 0 ≤ url.ttl_param ∧ ctx ≠ .fromtoHdr ∧ ctx ≠ .routingHdr then utoa url.ttl_param.toNat else []

/-- `maddr` is left out in From and To headers. -/
def maddrParamText : Text := if ctx ≠ .fromtoHdr then maddrText url.maddr_param else []

/-- `lr` is left out in From, To and Contact headers. -/
def lrText : Text :=
  if url.lr_param ∧ ctx ≠ .fromtoHdr ∧ ctx ≠ .contactHdr then ";lr".toList else []

/-- Header parameters are written in Contact headers and in other contexts. -/
def headerText : Text :=
  if ctx = .contactHdr ∨ ctx = .other then printParams hdrCharSpec '?' url.header_param else []

/-- The URI from the host on. -/
def hostPart : Text :=
  hostText url.host ++ (url.portText ctx ++
    (pairText "user".toList url.user_param ++ (pairText "method".toList (url.methodText ctx) ++
    (pairText "transport".toList (url.transportText ctx) ++
    (pairText "ttl".toList (url.ttlText ctx) ++ (pairText "maddr".toList (url.maddrParamText ctx) ++
    (url.lrText ctx ++ (printParams paramCharSpec ';' url.other_param ++ url.headerText ctx))))))))

/-- `pjsip_url_print`. -/
def print : Text := url.schemeText ++ (url.userText ++ url.hostPart ctx)

end SipUri

/-- `pjsip_uri_print`. -/
def Uri.print (ctx : Context) : Uri → Text
  | .sip url => url.print ctx
  | .other scheme content => scheme ++ ':' :: content

/-- `pjsip_name_addr_print`. -/
def NameAddr.print (ctx : Context) (name : NameAddr) : Text :=
  if ctx = .reqUri then name.uri.print ctx
  else (if name.display = [] then [] else '"' :: (name.display ++ ['"', ' '])) ++
    '<' :: (name.uri.print ctx ++ ['>'])

/-- The value of a From or To header. -/
def FromToHdr.value (hdr : FromToHdr) : Text :=
  hdr.uri.print .fromtoHdr ++ (pairText "tag".toList (escape tokenSpec hdr.tag) ++
    printParams tokenSpec ';' hdr.other_param)

/-- `pjsip_fromto_hdr_print`, with the name of the header. -/
def FromToHdr.print (name : Text) (hdr : FromToHdr) : Text := name ++ ':' :: ' ' :: hdr.value

end Sip.Wire
