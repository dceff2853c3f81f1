import Mathlib.Data.List.DropRight
import Gb28181.Lib.Decimal
import Gb28181.Sip.Scanner

/-!
# The parser of SIP URIs and of From and To headers

`int_parse_sip_url`, `int_parse_name_addr` and `parse_hdr_fromto` of the SIP stack with the
functions they call, and `pjsip_parse_uri`, with which SipSubService makes its From header.
-/

namespace Sip.Wire

open Lib Lib.Scan

/-! ### What is parsed -/

/-- `pjsip_param`. -/
structure Param where
  name : Text
  value : Text
  deriving DecidableEq, Repr

/-- `pjsip_sip_uri`, with the defaults of `pjsip_sip_uri_init`. -/
structure SipUri where
  secure : Bool
  user : Text := []
  passwd : Text := []
  host : Text := []
  port : ℤ := 0
  user_param : Text := []
  method_param : Text := []
  transport_param : Text := []
  ttl_param : ℤ := -1
  lr_param : Bool := false
  maddr_param : Text := []
  other_param : List Param := []
  header_param : List Param := []
  deriving DecidableEq, Repr

/-- `pjsip_uri`: a `pjsip_sip_uri` or a `pjsip_other_uri`. -/
inductive Uri where
  | sip (url : SipUri)
  | other (scheme content : Text)
  deriving DecidableEq, Repr

/-- `pjsip_name_addr`. -/
structure NameAddr where
  display : Text
  uri : Uri
  deriving DecidableEq, Repr

/-- `pjsip_fromto_hdr`. -/
structure FromToHdr where
  uri : NameAddr
  tag : Text := []
  other_param : List Param := []
  deriving DecidableEq, Repr

/-! ### Tokens -/

/-- `parser_stricmp`, for whether it is 0. -/
def stricmp (s1 s2 : Text) : Bool := fold s1 == fold s2

/-- `pj_str_unescape`. -/
def unescape : Text → Text := Percent.decode

/-- `parser_get_and_unescape`. -/
def getAndUnescape (ws : Bool) (p : Char → Bool) : Parser Text := do
  let token ← scanGet ws p
  return unescape token

/-- `pj_strtoul3` to the base 10; a value that is too large is one here as well. -/
def strtoul3 (str : Text) : Option ℕ :=
  let s := str.dropWhile isspace
  if (cur s).isDigit then some (leadingNat s) else none

/-- `pj_strtol2`. -/
def strtol2 (str : Text) : Option ℤ :=
  match str.dropWhile isspace with
  | [] => none
  | '-' :: s => (strtoul3 s).map fun n => -(n : ℤ)
  | '+' :: s => (strtoul3 s).map fun n => (n : ℤ)
  | s => (strtoul3 s).map fun n => (n : ℤ)

/-- `strtoi_validate`. -/
def strtoiValidate (str : Text) (min_val max_val : ℤ) : Parser ℤ :=
  match strtol2 str with
  | none => throw .einval
  | some retval =>
    if min_val ≤ retval ∧ retval ≤ max_val then return retval else throw .einval

/-- `pj_scan_get_char` where a certain character has to follow. -/
def expectChar (ws : Bool) (c : Char) : Parser Unit := do
  let chr ← scanGetChar ws
  if chr = c then return () else throw .syntaxError

/-! ### Parameters -/

/-- `parse_param_imp`, without the option to remove quotes. -/
def parseParamImp (ws : Bool) (p : Char → Bool) : Parser Param := do
  let pname ← getAndUnescape ws p
  if (← curChar) = '=' then
    let _ ← scanGetChar ws
    if ← isEof then return ⟨pname, []⟩
    else if (← curChar) = '"' then
      let pvalue ← scanGetQuote ws '"'
      return ⟨pname, pvalue⟩
    else if p (← curChar) then
      let pvalue ← getAndUnescape ws p
      return ⟨pname, pvalue⟩
    else return ⟨pname, []⟩
  else return ⟨pname, []⟩

/-- `int_parse_param` and `int_parse_uri_param`. -/
def parseParam (ws : Bool) (p : Char → Bool) : Parser Param := do
  let _ ← scanGetChar ws
  parseParamImp ws p

/-- `int_parse_hparam`. -/
def parseHparam : Parser Param := do
  let _ ← scanGetChar false
  let hname ← getAndUnescape false hdrCharSpec
  if (← curChar) = '=' then
    let _ ← scanGetChar false
    if hdrCharSpec (← curChar) then
      let hvalue ← getAndUnescape false hdrCharSpec
      return ⟨hname, hvalue⟩
    else return ⟨hname, []⟩
  else return ⟨hname, []⟩

/-! ### SIP URIs -/

/-- `int_parse_host`. -/
def parseHost (ws : Bool) : Parser Text := do
  if (← curChar) = '[' then
    let _ ← scanGetChar ws
    let host ← scanGetUntilCh ws ']'
    let _ ← scanGetChar ws
    return host
  else scanGet ws hostSpec

/-- `int_parse_uri_host_port`. -/
def parseUriHostPort : Parser (Text × ℤ) := do
  let host ← parseHost false
  if (← curChar) = ':' then
    let _ ← scanGetChar false
    let port ← scanGet false digitSpec
    let port ← strtoiValidate port 0 65535
    return (host, port)
  else return (host, 0)

/-- `int_is_next_user`. -/
def isNextUser : Parser Bool := do
  let (_, next) ← scanPeek probeUserHostSpec
  return next == '@'

/-- `int_parse_user_pass`. -/
def parseUserPass : Parser (Text × Text) := do
  let user ← getAndUnescape false userSpecLenient
  if (← curChar) = ':' then
    let _ ← scanGetChar false
    let pass ← getAndUnescape false passwdSpec
    let _ ← scanGetChar false
    return (user, pass)
  else
    let _ ← scanGetChar false
    return (user, [])

/-- What the loop of `int_parse_sip_url` does with a parameter. -/
def SipUri.addParam (url : SipUri) (p : Param) : Parser SipUri :=
  if stricmp p.name "user".toList && p.value ≠ [] then return { url with user_param := p.value }
  else if stricmp p.name "method".toList && p.value ≠ [] then
    return { url with method_param := p.value }
  else if stricmp p.name "transport".toList && p.value ≠ [] then
    return { url with transport_param := p.value }
  else if stricmp p.name "ttl".toList && p.value ≠ [] then do
    let ttl ← strtoiValidate p.value 0 255
    return { url with ttl_param := ttl }
  else if stricmp p.name "maddr".toList && p.value ≠ [] then
    return { url with maddr_param := p.value }
  else if stricmp p.name "lr".toList then return { url with lr_param := true }
  else return { url with other_param := url.other_param ++ [p] }

/-- The loop over the parameters of a URI. -/
def parseUriParams (url : SipUri) : Parser SipUri :=
  loop (fun s => cur s == ';') (fun url => do
    let p ← parseParam false paramCharSpec
    url.addParam p) url

/-- A header parameter of a URI. -/
def parseUriHeader (url : SipUri) : Parser SipUri := do
  let p ← parseHparam
  return { url with header_param := url.header_param ++ [p] }

/-- The header parameters of a URI. -/
def parseUriHeaders (url : SipUri) : Parser SipUri := do
  if (← curChar) = '?' then
    let url ← parseUriHeader url
    loop (fun s => cur s == '&') parseUriHeader url
  else return url

/-- The scheme of a SIP URI, for whether it is `sips`. -/
def parseScheme : Parser Bool := do
  let scheme ← scanGet false tokenSpec
  expectChar false ':'
  if stricmp scheme "sip".toList then return false
  else if stricmp scheme "sips".toList then return true
  else throw .syntaxError

/-- The user and the password of a SIP URI, if there is a user. -/
def parseUser : Parser (Text × Text) := do
  let is_user ← isNextUser
  if is_user then parseUserPass else return ([], [])

/-- The parameters of a SIP URI, if they are to be parsed. -/
def parseParams (parse_params : Bool) (url : SipUri) : Parser SipUri :=
  if parse_params then parseUriParams url >>= parseUriHeaders else return url

/-- `int_parse_sip_url`, after which `skip_ws` has its old value again. -/
def parseSipUrl (ws parse_params : Bool) : Parser SipUri := do
  let secure ← parseScheme
  let (user, passwd) ← parseUser
  let (host, port) ← parseUriHostPort
  let url ← parseParams parse_params
    { secure := secure, user := user, passwd := passwd, host := host, port := port }
  scanSkipWhitespace ws
  return url

/-- `int_parse_other_uri`. -/
def parseOtherUri : Parser Uri := do
  let scheme ← scanGet false tokenSpec
  expectChar false ':'
  let content ← scanGet false otherUriContent
  return .other scheme content

/-- The parser that `find_uri_handler` finds for a scheme. -/
def uriHandler (scheme : Text) (ws parse_params : Bool) : Parser Uri :=
  if stricmp scheme "sip".toList || stricmp scheme "sips".toList then do
    let url ← parseSipUrl ws parse_params
    return .sip url
  else if stricmp scheme "tel".toList then throw .telUri
  else parseOtherUri

/-- `int_parse_uri`. -/
def parseUri (ws parse_params : Bool) : Parser Uri := do
  let (scheme, colon) ← scanPeek tokenSpec
  if colon = ':' then uriHandler scheme ws parse_params else throw .syntaxError

/-! ### Name addresses and headers -/

/-- `pj_strtrim`. -/
def strtrim (s : Text) : Text := (s.dropWhile isspace).rdropWhile isspace

/-- The display name that `int_parse_name_addr` begins with. -/
def parseDisplay (ws : Bool) : Parser Text := do
  let c ← curChar
  if c = '"' then
    let quoted ← scanGetQuote ws '"'
    return quoted.tail.dropLast
  else if c = '<' then return []
  else
    let (_, next) ← scanPeek displaySpec
    if next = '<' then
      let display ← scanGetUntilCh ws '<'
      return strtrim display
    else return []

/-- `int_parse_name_addr`. -/
def parseNameAddr (ws : Bool) : Parser NameAddr := do
  let display ← parseDisplay ws
  scanSkipWhitespace ws
  if (← curChar) = '<' then
    let _ ← scanGetChar ws
    let uri ← parseUri ws true
    expectChar ws '>'
    return ⟨display, uri⟩
  else if display = [] then
    let uri ← parseUri ws true
    return ⟨display, uri⟩
  else throw .syntaxError

/-- `int_parse_uri_or_name_addr` with `PJSIP_PARSE_URI_AS_NAMEADDR`; `parse_params` says that
`PJSIP_PARSE_URI_IN_FROM_TO_HDR` is not set. -/
def parseUriOrNameAddr (ws parse_params : Bool) : Parser NameAddr := do
  scanSkipWhitespace ws
  let c ← curChar
  if c = '"' ∨ c = '<' then parseNameAddr ws
  else
    let (scheme, next_ch) ← scanPeek displaySpec
    if next_ch = ':' then
      let uri ← uriHandler scheme ws parse_params
      return ⟨[], uri⟩
    else parseNameAddr ws

/-- What the loop of `parse_hdr_fromto` does with a parameter. -/
def FromToHdr.addParam (hdr : FromToHdr) (p : Param) : FromToHdr :=
  if stricmp p.name "tag".toList then { hdr with tag := p.value }
  else { hdr with other_param := hdr.other_param ++ [p] }

/-- The loop over the parameters of a header. -/
def parseHdrParams (hdr : FromToHdr) : Parser FromToHdr :=
  loop (fun s => cur s == ';') (fun hdr => do
    let p ← parseParam true tokenSpec
    return hdr.addParam p) hdr

/-- `parse_hdr_end`. -/
def parseHdrEnd : Parser Unit := do
  if ← isEof then return ()
  else if (← curChar) = '&' then
    let _ ← scanGetChar true
    return ()
  else scanGetNewline

/-- `parse_hdr_fromto`. -/
def parseHdrFromto : Parser FromToHdr := do
  let uri ← parseUriOrNameAddr true false
  let hdr ← parseHdrParams { uri := uri }
  parseHdrEnd
  return hdr

/-- `pjsip_parse_uri` with `PJSIP_PARSE_URI_AS_NAMEADDR`. -/
def pjsipParseUri (buf : Text) : Option NameAddr :=
  match (parseUriOrNameAddr false true).run.run buf with
  | (.error _, _) => none
  | (.ok uri, rest) => if rest.isEmpty || isNewline (cur rest) then some uri else none

end Sip.Wire
