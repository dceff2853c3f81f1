import Gb28181.Sip.Parser
import Gb28181.Sip.Regc

/-!
# The parser of SIP messages

`int_parse_msg` of the SIP stack with the parsers of the request line, the status line and the
headers.  A header that cannot be parsed is skipped up to the next line that does not continue it
and reported in the list of errors; the message is given up if that line ends the headers.  The
parsers of the headers that neither service sends or reads are a parameter.
-/

namespace Sip.Wire

open Lib Lib.Scan

/-- `PJ_MAXINT32`. -/
def maxInt32 : ℤ := 0x7fffffff

/-! ### What is parsed -/

/-- `pjsip_via_hdr`, with the defaults of `pjsip_via_hdr_init`. -/
structure ViaHdr where
  transport : Text := []
  host : Text := []
  port : ℤ := 0
  ttl_param : ℤ := -1
  rport_param : ℤ := -1
  maddr_param : Text := []
  recvd_param : Text := []
  branch_param : Text := []
  other_param : List Param := []
  comment : Text := []
  deriving DecidableEq, Repr

/-- `pjsip_contact_hdr` with an address, and the defaults of `pjsip_contact_hdr_init`. -/
structure ContactHdr where
  uri : NameAddr
  q1000 : ℤ := 0
  expires : ℤ := -1
  other_param : List Param := []
  deriving DecidableEq, Repr

/-- `pjsip_hdr`, where `H` are the headers of the other parsers. -/
inductive Hdr (H : Type) where
  | via (hdr : ViaHdr)
  | fromHdr (hdr : FromToHdr)
  | toHdr (hdr : FromToHdr)
  | callId (id : Text)
  | cseq (cseq : ℤ) (method : Text)
  | contact (hdr : ContactHdr)
  /-- A contact with `star`. -/
  | contactStar
  | maxForwards (ivalue : ℤ)
  | expires (ivalue : ℤ)
  | minExpires (ivalue : ℤ)
  | contentLength (len : ℤ)
  | contentType (type subtype : Text) (param : List Param)
  | generic (name hvalue : Text)
  | other (hdr : H)
  deriving DecidableEq, Repr

/-- The request line or the status line of a message. -/
inductive Line where
  | request (method : Text) (uri : Uri)
  | status (code : ℤ) (reason : Text)
  deriving DecidableEq, Repr

/-- `pjsip_msg`; the body is as on the wire. -/
structure Msg (H : Type) where
  line : Line
  hdr : List (Hdr H)
  body : Option Text := none
  deriving DecidableEq, Repr

/-- `pjsip_parser_err_report`, without the position. -/
structure ErrReport where
  except_code : ParseError
  hname : Text
  deriving DecidableEq, Repr

/-- The parsers of the other headers, as `find_handler` finds them, and how these headers are
printed.  They keep nothing from one header to the next; the two that do are those of
`mergedName`. -/
structure Others (H : Type) where
  find : Text → Option (Parser (List H))
  print : H → Text

/-- No other headers. -/
def noOthers : Others Empty where
  find _ := none
  print hdr := hdr.elim

variable {H : Type} (others : Others H)

/-! ### Request line and status line -/

/-- `pjsip_NOT_NEWLINE`. -/
def notNewline : Char → Bool := inverted "\r\n".toList

/-- `pjsip_ALPHA_SPEC`. -/
def alphaSpec : Char → Bool := Char.isAlpha

/-- `pjsip_VIA_PARAM_SPEC`. -/
def viaParamSpec : Char → Bool := spec "-.!%*_`'~+:".toList

/-- `pj_scan_get_n`. -/
def scanGetN (ws : Bool) (n : ℕ) : Parser Text := fun s =>
  if s.length < n then (.error .syntaxError, s) else (.ok (s.take n), autoskip ws (s.drop n))

/-- `parse_sip_version`. -/
def parseSipVersion : Parser Unit := do
  let sip ← scanGet true alphaSpec
  expectChar true '/'
  let version ← scanGetN true 3
  if stricmp sip "SIP".toList && stricmp version "2.0".toList then return ()
  else throw .syntaxError

/-- `is_next_sip_version`. -/
def isNextSipVersion : Parser Bool := do
  let (sip, c) ← scanPeek alphaSpec
  return (c == '/' || c == ' ' || c == '\t') && stricmp sip "SIP".toList

/-- The names of the methods that the stack knows. -/
def methodNames : List Text :=
  ["INVITE".toList, "CANCEL".toList, "ACK".toList, "BYE".toList, "REGISTER".toList,
    "OPTIONS".toList]

/-- `pjsip_method_init_np`: a method that the stack knows has its name in capitals. -/
def methodInit (str : Text) : Text := (methodNames.find? fun name => stricmp str name).getD str

/-- `int_parse_req_line`. -/
def parseReqLine : Parser Line := do
  let token ← scanGet true tokenSpec
  let uri ← parseUri true true
  parseSipVersion
  scanGetNewline
  return .request (methodInit token) uri

/-- `int_parse_status_line`. -/
def parseStatusLine : Parser Line := do
  parseSipVersion
  let token ← scanGet true digitSpec
  let code ← strtoiValidate token 100 999
  if isNewline (← curChar) then
    scanGetNewline
    return .status code []
  else
    let reason ← scanGet true notNewline
    scanGetNewline
    return .status code reason

/-- The request line or the status line. -/
def parseLine : Parser Line := do
  let status ← isNextSipVersion
  if status then parseStatusLine else parseReqLine

/-! ### Headers -/

/-- `pj_strtoul_mindigit`. -/
def strtoulMindigit (str : Text) (mindig : ℕ) : ℕ :=
  let value := str.foldl (fun value c => ((value * 10 + ((c.toNat : ℤ) - 48)) % 2 ^ 64)) (0 : ℤ)
  (value.toNat * 10 ^ (mindig - str.length)) % 2 ^ 64

/-- `parse_generic_int_hdr`, whose value is signed. -/
def parseGenericIntHdr : Parser ℤ := do
  let tmp ← scanGet true digitSpec
  parseHdrEnd
  return parseIntHdr tmp

/-- `parse_hdr_call_id`. -/
def parseHdrCallId : Parser Text := do
  let id ← scanGet true notNewline
  parseHdrEnd
  return id

/-- `parse_hdr_cseq`. -/
def parseHdrCseq : Parser (ℤ × Text) := do
  let cseq ← scanGet true digitSpec
  let cseq ← strtoiValidate cseq 0 maxInt32
  let method ← scanGet true tokenSpec
  parseHdrEnd
  return (cseq, methodInit method)

/-- `parse_hdr_content_type`. -/
def parseHdrContentType : Parser (Text × Text × List Param) := do
  let type ← scanGet true tokenSpec
  let _ ← scanGetChar true
  let subtype ← scanGet true tokenSpec
  let param ← loop (fun s => cur s == ';') (fun params => do
    let p ← parseParam true tokenSpec
    return params ++ [p]) []
  parseHdrEnd
  return (type, subtype, param)

/-- The `q` value of a Contact header. -/
def parseQ (pvalue : Text) : Parser ℤ := do
  if '.' ∈ pvalue then
    let q1000 ← strtoiValidate (pvalue.takeWhile (· != '.')) 0 (maxInt32 / 1000)
    let qval_frac := strtoulMindigit (((pvalue.dropWhile (· != '.')).drop 1).take 3) 3
    if q1000 * 1000 > (maxInt32 - qval_frac) % 2 ^ 64 then throw .syntaxError
    else return wrap32 (q1000 * 1000 + qval_frac)
  else
    let q1000 ← strtoiValidate pvalue 0 (maxInt32 / 1000)
    return q1000 * 1000

/-- What the loop of `int_parse_contact_param` does with a parameter. -/
def ContactHdr.addParam (hdr : ContactHdr) (p : Param) : Parser ContactHdr :=
  if stricmp p.name "q".toList && p.value ≠ [] then do
    let q1000 ← parseQ p.value
    return { hdr with q1000 := q1000 }
  else if stricmp p.name "expires".toList && p.value ≠ [] then do
    let expires ← strtoiValidate p.value 0 maxInt32
    return { hdr with expires := expires }
  else return { hdr with other_param := hdr.other_param ++ [p] }

/-- `int_parse_contact_param`. -/
def parseContactParam (hdr : ContactHdr) : Parser ContactHdr :=
  loop (fun s => cur s == ';') (fun hdr => do
    let p ← parseParam true tokenSpec
    hdr.addParam p) hdr

/-- One contact of a Contact header. -/
def parseContact : Parser (Hdr H) := do
  if (← curChar) = '*' then
    let _ ← scanGetChar true
    return .contactStar
  else
    let uri ← parseUriOrNameAddr true false
    let hdr ← parseContactParam { uri := uri }
    return .contact hdr

/-- What stands before each comma and after the last one. -/
def parseCommaList {α : Type} (p : Parser α) : Parser (List α) := do
  let first ← p
  loop (fun s => cur s == ',') (fun xs => do
    let _ ← scanGetChar true
    let x ← p
    return xs ++ [x]) [first]

/-- `parse_hdr_contact`. -/
def parseHdrContact : Parser (List (Hdr H)) := do
  let hdrs ← parseCommaList parseContact
  parseHdrEnd
  return hdrs

/-- What the loop of `int_parse_via_param` does with a parameter. -/
def ViaHdr.addParam (hdr : ViaHdr) (p : Param) : Parser ViaHdr :=
  if stricmp p.name "branch".toList && p.value ≠ [] then return { hdr with branch_param := p.value }
  else if stricmp p.name "ttl".toList && p.value ≠ [] then do
    let ttl ← strtoiValidate p.value 0 255
    return { hdr with ttl_param := ttl }
  else if stricmp p.name "maddr".toList && p.value ≠ [] then
    return { hdr with maddr_param := p.value }
  else if stricmp p.name "received".toList && p.value ≠ [] then
    return { hdr with recvd_param := p.value }
  else if stricmp p.name "rport".toList then
    if p.value ≠ [] then do
      let rport ← strtoiValidate p.value 0 65535
      return { hdr with rport_param := rport }
    else return { hdr with rport_param := 0 }
  else return { hdr with other_param := hdr.other_param ++ [p] }

/-- `int_parse_via_param`. -/
def parseViaParam (hdr : ViaHdr) : Parser ViaHdr :=
  loop (fun s => cur s == ';') (fun hdr => do
    let p ← parseParam true viaParamSpec
    hdr.addParam p) hdr

/-- Host and port of a Via header. -/
def parseSentBy : Parser (Text × ℤ) := do
  let host ← parseHost true
  if (← curChar) = ':' then
    let _ ← scanGetChar true
    let digit ← scanGet true digitSpec
    let port ← strtoiValidate digit 0 65535
    return (host, port)
  else return (host, 0)

/-- The comment of a Via header. -/
def parseViaComment (hdr : ViaHdr) : Parser ViaHdr := do
  if (← curChar) = '(' then
    let _ ← scanGetChar true
    let comment ← scanGetUntilCh true ')'
    let _ ← scanGetChar true
    return { hdr with comment := comment }
  else return hdr

/-- One value of a Via header. -/
def parseVia : Parser ViaHdr := do
  parseSipVersion
  expectChar true '/'
  let transport ← scanGet true tokenSpec
  let (host, port) ← parseSentBy
  let hdr ← parseViaParam { transport := transport, host := host, port := port }
  parseViaComment hdr

/-- `parse_hdr_via`. -/
def parseHdrVia : Parser (List ViaHdr) := do
  let hdrs ← parseCommaList parseVia
  parseHdrEnd
  return hdrs

/-- The loop of `parse_generic_string_hdr`: a header with continuation lines is put together from
two of them at a time. -/
def parseGenericString : Parser Text :=
  loop (fun s => notNewline (cur s)) (fun _ => do
    let hvalue ← scanGet true notNewline
    if (← isEof) || isNewline (← curChar) then return hvalue
    else
      let next ← scanGet true notNewline
      return hvalue ++ ' ' :: next) []

/-- `parse_generic_string_hdr`. -/
def parseGenericStringHdr : Parser Text := do
  let hvalue ← parseGenericString
  parseHdrEnd
  return hvalue

/-- Whether a header has this name or, if there is one, this short name. -/
def named (hname : Text) (name sname : Text) : Bool :=
  stricmp hname name || (decide (sname ≠ []) && stricmp hname sname)

/-- The names of the headers that `parse_hdr_supported` and `parse_hdr_require` put into one header
of the message, through `rdata->msg_info`. -/
def mergedName (hname : Text) : Bool :=
  named hname "Supported".toList "k".toList || named hname "Require".toList []

/-- `handler_rec` of a parser that is modelled: name, short name and handler. -/
structure HandlerRec (H : Type) where
  hname : Text
  sname : Text
  handler : Parser (List (Hdr H))

/-- What `init_parser` registers. -/
def handlers : List (HandlerRec H) :=
  [⟨"Call-ID".toList, "i".toList, (fun id => [.callId id]) <$> parseHdrCallId⟩,
    ⟨"Contact".toList, "m".toList, parseHdrContact⟩,
    ⟨"Content-Length".toList, "l".toList,
      (fun len => [.contentLength len]) <$> parseGenericIntHdr⟩,
    ⟨"Content-Type".toList, "c".toList,
      (fun x => [.contentType x.1 x.2.1 x.2.2]) <$> parseHdrContentType⟩,
    ⟨"CSeq".toList, [], (fun x => [.cseq x.1 x.2]) <$> parseHdrCseq⟩,
    ⟨"Expires".toList, [], (fun ivalue => [.expires ivalue]) <$> parseGenericIntHdr⟩,
    ⟨"From".toList, "f".toList, (fun hdr => [.fromHdr hdr]) <$> parseHdrFromto⟩,
    ⟨"Max-Forwards".toList, [], (fun ivalue => [.maxForwards ivalue]) <$> parseGenericIntHdr⟩,
    ⟨"Min-Expires".toList, [], (fun ivalue => [.minExpires ivalue]) <$> parseGenericIntHdr⟩,
    ⟨"To".toList, "t".toList, (fun hdr => [.toHdr hdr]) <$> parseHdrFromto⟩,
    ⟨"Via".toList, "v".toList, (fun hdrs => hdrs.map .via) <$> parseHdrVia⟩]

/-- `find_handler`; names as long as `PJSIP_MAX_HNAME_LEN` have none. -/
def findHandler (hname : Text) : Option (Parser (List (Hdr H))) :=
  if 64 ≤ hname.length then none
  else match handlers.find? fun rec => named hname rec.hname rec.sname with
    | some rec => some rec.handler
    | none => (others.find hname).map fun p => (fun hdrs => hdrs.map .other) <$> p

/-- The parser of a header with this name. -/
def hdrParser (hname : Text) : Parser (List (Hdr H)) :=
  match findHandler others hname with
  | some func => func
  | none => (fun hvalue => [.generic hname hvalue]) <$> parseGenericStringHdr

/-- A header with its name. -/
def parseHdr : Parser (List (Hdr H)) := do
  let hname ← scanGet true tokenSpec
  expectChar true ':'
  hdrParser others hname

/-- The name that is reported if `parseHdr` fails. -/
def reportedName (s : Text) : Text := s.takeWhile tokenSpec

/-! ### Messages -/

/-- `pj_scan_skip_line`. -/
def skipLine (s : Text) : Text :=
  match s.dropWhile fun c => c != '\n' && c != nul with
  | '\n' :: t => t
  | _ => []

/-- The lines that continue a header, which begin with a blank, are skipped with it; `n` is the
number of lines at most. -/
def skipLines : ℕ → Text → Text
  | 0, s => s
  | n + 1, s => if isSpace (cur (skipLine s)) then skipLines n (skipLine s) else skipLine s

/-- The end of the headers. -/
def endsHdrs (s : Text) : Bool := s.isEmpty || isNewline (cur s)

/-- The loop over the headers, with the jump to `retry_parse` after an exception: the headers and
what follows them, if the message is not given up, and the errors.  The first number bounds the
headers that are tried; the value `none` says that it is too small. -/
def parseHdrs : ℕ → List (Hdr H) → List ErrReport → Text →
    Option (Option (List (Hdr H) × Text) × List ErrReport)
  | 0, _, _, _ => none
  | n + 1, hdrs, errs, s =>
    match (parseHdr others).run.run s with
    | (.ok new, t) =>
      if endsHdrs t then some (some (hdrs ++ new, t), errs)
      else parseHdrs n (hdrs ++ new) errs t
    | (.error e, t) =>
      let errs := errs ++ [⟨e, reportedName s⟩]
      let u := if t.isEmpty then t else skipLines t.length t
      if endsHdrs u then some (none, errs) else parseHdrs n hdrs errs u

/-- The line ends before a message. -/
def skipNewlines (s : Text) : Text := s.dropWhile isNewline

/-- The name that is reported if the first line cannot be parsed. -/
def lineName (s : Text) : Text :=
  match isNextSipVersion.run.run s with
  | (.ok true, _) => "Status Line".toList
  | _ => "Request Line".toList

/-- Whether there is a Content-Type header. -/
def hasContentType (hdrs : List (Hdr H)) : Bool :=
  hdrs.any fun hdr => match hdr with
    | .contentType _ _ _ => true
    | _ => false

/-- `int_parse_msg`: the message and the list of errors. -/
def parseMsg (buf : Text) : Option (Option (Msg H) × List ErrReport) :=
  let s := skipNewlines (skipWhitespace true buf)
  if s.isEmpty then some (none, [])
  else
    match parseLine.run.run s with
    | (.error e, _) => some (none, [⟨e, lineName s⟩])
    | (.ok line, t) =>
      (parseHdrs others (t.length + 1) [] [] t).map fun
        | (none, errs) => (none, errs)
        | (some (hdr, t), errs) =>
          let body := skipNewline t
          (some ⟨line, hdr, if hasContentType hdr && !body.isEmpty then some body else none⟩, errs)

end Sip.Wire
