import Gb28181.Sip.MsgParser
import Gb28181.Sip.Printer

/-!
# The text of SIP messages

What `pjsip_msg_print` writes for a message without a body into a buffer that is large enough, with
the `print_on` of its headers in their long form.
-/

namespace Sip.Wire

open Lib

/-! ### Headers -/

/-- How the fraction of a `q` value is shortened. -/
def shortFrac (frac : ℕ) : ℕ :=
  let frac := if frac % 100 = 0 then frac / 100 else frac
  if frac % 10 = 0 then frac / 10 else frac

/-- The `q` value. -/
def qText (q1000 : ℤ) : Text :=
  let frac := toUInt32 (q1000.tmod 1000)
  utoa (toULong (q1000.tdiv 1000)) ++ if frac ≠ 0 then '.' :: utoa (shortFrac frac) else []

/-- The value of a Contact header with an address. -/
def ContactHdr.value (hdr : ContactHdr) : Text :=
  hdr.uri.print .contactHdr ++
    ((if hdr.q1000 ≠ 0 then paramText ';' "q".toList (qText hdr.q1000) else []) ++
    ((if 0 ≤ hdr.expires then paramText ';' "expires".toList (utoa (toULong hdr.expires)) else []) ++
    printParams tokenSpec ';' hdr.other_param))

/-- Host and port of a Via header. -/
def sentByText (host : Text) (port : ℤ) : Text :=
  hostText host ++ if port ≠ 0 then ':' :: utoa (toULong port) else []

/-- The value of a Via header; the comment is left out. -/
def ViaHdr.value (hdr : ViaHdr) : Text :=
  "SIP/2.0/".toList ++ (hdr.transport.map Char.toUpper ++ ' ' :: (sentByText hdr.host hdr.port ++
    ((if 0 ≤ hdr.ttl_param then paramText ';' "ttl".toList (utoa (toULong hdr.ttl_param)) else []) ++
    ((if 0 ≤ hdr.rport_param then paramText ';' "rport".toList
        (if 0 < hdr.rport_param then utoa (toULong hdr.rport_param) else []) else []) ++
    (pairText "maddr".toList (hostText hdr.maddr_param) ++
    (pairText "received".toList hdr.recvd_param ++
    (pairText "branch".toList (escape tokenSpec hdr.branch_param) ++
    printParams tokenSpec ';' hdr.other_param)))))))

namespace Hdr

variable {H : Type}

/-- What stands before the colon. -/
def name : Hdr H → Text
  | .via _ => "Via".toList
  | .fromHdr _ => "From".toList
  | .toHdr _ => "To".toList
  | .callId _ => "Call-ID".toList
  | .cseq _ _ => "CSeq".toList
  | .contact _ => "Contact".toList
  | .contactStar => "Contact".toList
  | .maxForwards _ => "Max-Forwards".toList
  | .expires _ => "Expires".toList
  | .minExpires _ => "Min-Expires".toList
  | .contentLength _ => "Content-Length".toList
  | .contentType _ _ _ => "Content-Type".toList
  | .generic name _ => name
  | .other _ => []

/-- What stands after the colon and the blank. -/
def value : Hdr H → Text
  | .via hdr => hdr.value
  | .fromHdr hdr => hdr.value
  | .toHdr hdr => hdr.value
  | .callId id => id
  | .cseq seq method => utoa (toULong seq) ++ ' ' :: method
  | .contact hdr => hdr.value
  | .contactStar => ['*']
  | .maxForwards ivalue => printIntHdr ivalue
  | .expires ivalue => printIntHdr ivalue
  | .minExpires ivalue => printIntHdr ivalue
  | .contentLength len => printIntHdr len
  | .contentType type subtype param => type ++ '/' :: (subtype ++ printParams tokenSpec ';' param)
  | .generic _ hvalue => hvalue
  | .other _ => []

/-- `pjsip_hdr_print_on`. -/
def print (others : Others H) : Hdr H → Text
  | .other hdr => others.print hdr
  | hdr => hdr.name ++ ':' :: ' ' :: hdr.value

end Hdr

/-! ### Messages -/

/-- The line end. -/
def crlf : Text := ['\r', '\n']

/-- The first line of a message. -/
def Line.print : Line → Text
  | .request method uri => method ++ ' ' :: (uri.print .reqUri ++ " SIP/2.0\r\n".toList)
  | .status code reason => "SIP/2.0 ".toList ++ (utoa (toULong code) ++ ' ' :: (reason ++ crlf))

variable {H : Type} (others : Others H)

/-- A header with its line end, unless nothing is printed for it. -/
def lineOf (hdr : Hdr H) : Text :=
  if hdr.print others = [] then [] else hdr.print others ++ crlf

/-- `pjsip_msg_print` for a message without a body: the name of the last header comes with a blank,
and another one stands before the zero. -/
def printMsg (line : Line) (hdr : List (Hdr H)) : Text :=
  line.print ++ (hdr.flatMap (lineOf others) ++ "Content-Length:  0\r\n\r\n".toList)

end Sip.Wire
