import Mathlib.Data.List.TakeDrop
import Gb28181.Lib.Decimal

/-!
# SIP requests as the two services see them

The headers of a request that the services read, with the text that the SIP stack prints for
a From header; and the formatting of the headers that SipSubService sends (`SipMessage`).
-/

namespace Sip

open Lib

/-- The schemes of a SIP URI. -/
inductive Scheme where
  | sip
  | sips
  deriving DecidableEq, Repr

def Scheme.text : Scheme → Text
  | .sip => "sip".toList
  | .sips => "sips".toList

/-- A From header: `["display" ]<scheme:[user[:passwd]@]host>params`.  The port and the
parameters of the URI are part of `host`. -/
structure FromHdr where
  display : Text
  scheme : Scheme
  user : Text
  passwd : Text
  host : Text
  params : Text
  host_ne_nil : host ≠ []
  nul_notMem : nul ∉ display ++ user ++ passwd ++ host ++ params

namespace FromHdr

variable (h : FromHdr)

/-- The URI after the scheme and the colon, with what follows it in the header. -/
def address : Text :=
  (if h.user = [] then []
    else h.user ++ (if h.passwd = [] then [] else ':' :: h.passwd) ++ ['@']) ++
    (h.host ++ '>' :: h.params)

/-- What stands between the name of the header and the address. -/
def opening : Text :=
  (if h.display = [] then [] else '"' :: (h.display ++ ['"', ' '])) ++
    '<' :: (h.scheme.text ++ [':'])

/-- The name of the header. -/
def name : Text := "From: ".toList

/-- The text of the header. -/
def text : Text := name ++ (h.opening ++ h.address)

/-- `print_on` with a buffer of `size` bytes: the size that was printed, and the buffer up to
the terminator. -/
def printOn (size : ℕ) : ℤ × Text :=
  if h.text.length < size then (h.text.length, h.text) else (-1, [])

lemma nul_notMem_text : nul ∉ h.text := by
  have hparts := h.nul_notMem
  simp only [List.mem_append, not_or] at hparts
  obtain ⟨⟨⟨⟨hdisplay, huser⟩, hpasswd⟩, hhost⟩, hparams⟩ := hparts
  have hscheme : nul ∉ h.scheme.text := by cases h.scheme <;> decide
  have hmarks : nul ∉ ['"', ' ', '<', '>', ':', '@'] := by decide
  simp only [List.mem_cons, not_or] at hmarks
  obtain ⟨hquote, hblank, hleft, hright, hcolon, hat, -⟩ := hmarks
  have hopening : nul ∉ h.opening := by
    rw [opening]
    split <;> simp only [List.mem_append, List.mem_cons, List.not_mem_nil, hdisplay, hscheme,
      hquote, hblank, hleft, hcolon, or_self, not_false_eq_true]
  have haddress : nul ∉ h.address := by
    rw [address]
    split
    · simp only [List.mem_append, List.mem_cons, List.not_mem_nil, hhost, hparams, hright, or_self,
        not_false_eq_true]
    · split <;> simp only [List.mem_append, List.mem_cons, List.not_mem_nil, huser, hpasswd, hhost,
        hparams, hright, hat, hcolon, or_self, not_false_eq_true]
  have hname : nul ∉ name := by decide
  rw [text, List.mem_append, List.mem_append, not_or, not_or]
  exact ⟨hname, hopening, haddress⟩

/-- The header is at least as long as `From: <sip:h>`. -/
lemma length_text_ge : 13 ≤ h.text.length := by
  have hhost := List.length_pos_iff.2 h.host_ne_nil
  have hscheme : 3 ≤ h.scheme.text.length := by cases h.scheme <;> decide
  have hname : name.length = 6 := rfl
  simp only [text, opening, address, List.length_append, List.length_cons, List.length_nil, hname]
  omega

end FromHdr

/-- `pjsip_method` as far as the services tell methods apart. -/
inductive Method where
  | register
  | other
  deriving DecidableEq, Repr

/-- `pjsip_msg`: the headers that the services look up with `pjsip_msg_find_hdr`, which yields
a null pointer for one that is absent. -/
structure Msg where
  method : Method
  fromHdr : Option FromHdr
  expires : Option ℤ

/-! ### The headers that SipSubService formats -/

/-- `sprintf` into a buffer of 128 bytes. -/
def sprintf128 (s : Text) : Except Fault Text :=
  if s.length < 128 then .ok s else .error .outOfBounds

/-- `SipMessage::setFrom`. -/
def setFrom (fromUsr fromIp : Text) : Except Fault Text :=
  sprintf128 ("<sip:".toList ++ fromUsr ++ "@".toList ++ fromIp ++ ">".toList)

/-- `SipMessage::setTo`. -/
def setTo (toUser toIp : Text) : Except Fault Text :=
  sprintf128 ("<sip:".toList ++ toUser ++ "@".toList ++ toIp ++ ">".toList)

/-- `SipMessage::setUrl`. -/
def setUrl (sipId url_ip : Text) (url_port : ℤ) (url_proto : Text) : Except Fault Text :=
  sprintf128 ("sip:".toList ++ sipId ++ "@".toList ++ url_ip ++ ":".toList ++ to_string url_port ++
    ";transport=".toList ++ url_proto)

/-- `SipMessage::setContact`. -/
def setContact (sipId natIp : Text) (natPort : ℤ) : Except Fault Text :=
  sprintf128 ("sip:".toList ++ sipId ++ "@".toList ++ natIp ++ ":".toList ++ to_string natPort)

end Sip
