import Gb28181.Sip.FoldedHeader
import Gb28181.Sip.ViaRoundTrip

/-!
# SIP messages are read as they were written

Each header that can be read back is a line that the parser reads, whatever follows it, and so a
message without a body is read as it was printed, with its Content-Length header after the others
(`parseMsg_printMsg`).
-/

namespace Sip.Wire

open Lib Lib.Scan

variable {H : Type} {others : Others H} {s t text value : Text} {hdrs : List (Hdr H)}

/-! ### What can be read back -/

/-- A header that is read back. -/
def Hdr.Printable (others : Others H) : Hdr H → Prop
  | .via hdr => hdr.Printable
  | .fromHdr hdr => hdr.Printable
  | .toHdr hdr => hdr.Printable
  | .callId id => Visible id ∧ ∀ c ∈ id, notNewline c = true
  | .cseq seq method => (0 ≤ seq ∧ seq ≤ maxInt32) ∧ method ≠ [] ∧ ∀ c ∈ method, tokenSpec c = true
  | .contact hdr => hdr.Printable
  | .contactStar => True
  | .maxForwards ivalue => IsInt32 ivalue
  | .expires ivalue => IsInt32 ivalue
  | .minExpires ivalue => IsInt32 ivalue
  | .contentLength len => IsInt32 len
  | .contentType type subtype param => (type ≠ [] ∧ ∀ c ∈ type, tokenSpec c = true) ∧
      (subtype ≠ [] ∧ ∀ c ∈ subtype, tokenSpec c = true) ∧ ∀ q ∈ param, q.Printable
  | .generic name hvalue => (name ≠ [] ∧ ∀ c ∈ name, tokenSpec c = true) ∧
      (findHandler others name = none ∧ mergedName name = false) ∧ (hvalue = [] ∨ Visible hvalue) ∧
      ∀ c ∈ hvalue, notNewline c = true
  | .other hdr => IsHdr others (others.print hdr ++ crlf) [.other hdr] ∧
      mergedName (reportedName (others.print hdr)) = false

/-- What is read of a header that was printed. -/
def Hdr.received : Hdr H → Hdr H
  | .via hdr => .via hdr.received
  | .fromHdr hdr => .fromHdr hdr.received
  | .toHdr hdr => .toHdr hdr.received
  | .cseq seq method => .cseq seq (methodInit method)
  | .contact hdr => .contact hdr.received
  | .contentType type subtype param => .contentType type subtype (param.map Param.read)
  | hdr => hdr

/-! ### Lines -/

lemma autoskip_blank_crlf (hs : isSpace (cur s) = false) :
    autoskip true (' ' :: '\r' :: '\n' :: s) = '\r' :: '\n' :: s := by
  have hcrlf : skipWhitespace true ('\r' :: '\n' :: s) = '\r' :: '\n' :: s :=
    settled_crlf hs
  show skipWhitespace true (' ' :: '\r' :: '\n' :: s) = _
  unfold skipWhitespace at hcrlf ⊢
  exact hcrlf

/-- The colon, with what is passed over before the value. -/
lemma reads_colon {u : Text} (hskip : autoskip true u = t) :
    Reads (expectChar true ':') (':' :: u) () t := by
  refine (Reads.scanGetChar_skip (by decide) hskip).bind ?_
  rw [if_pos rfl]
  exact .pure _ _

/-- A header whose value is read is a line that is read; the gap before the value is passed over. -/
lemma isHdr_of_skip {hname : Text} (gap : Text) (hne : hname ≠ [])
    (htoken : ∀ c ∈ hname, tokenSpec c = true)
    (hskip : ∀ s, isSpace (cur s) = false →
      autoskip true (gap ++ (value ++ '\r' :: '\n' :: s)) = value ++ '\r' :: '\n' :: s)
    (h : ∀ s, isSpace (cur s) = false →
      Reads (hdrParser others hname) (value ++ '\r' :: '\n' :: s) hdrs s) :
    IsHdr others (hname ++ ':' :: (gap ++ value) ++ crlf) hdrs := by
  intro s hs
  have htext : hname ++ ':' :: (gap ++ value) ++ crlf ++ s =
      hname ++ ':' :: (gap ++ (value ++ '\r' :: '\n' :: s)) := by simp [crlf]
  have hcolon := reads_colon (hskip s hs)
  rw [htext]
  exact (Reads.scanGet hne htoken rfl (settled_cons (by decide))).bind (hcolon.bind (h s hs))

lemma isHdr_of_reads {hname : Text} (hne : hname ≠ []) (htoken : ∀ c ∈ hname, tokenSpec c = true)
    (hvalue : value = [] ∨ Visible value) (h : ∀ s, isSpace (cur s) = false →
      Reads (hdrParser others hname) (value ++ '\r' :: '\n' :: s) hdrs s) :
    IsHdr others (hname ++ ':' :: ' ' :: value ++ crlf) hdrs := by
  refine isHdr_of_skip [' '] hne htoken (fun s hs => ?_) h
  rcases hvalue with rfl | ⟨c, v, rfl, hc⟩
  · exact autoskip_blank_crlf hs
  · exact autoskip_blank hc

/-- Blanks before a value are passed over. -/
lemma autoskip_blanks (hvalue : Visible value) (blanks : ℕ) :
    autoskip true (List.replicate blanks ' ' ++ (value ++ s)) = value ++ s := by
  obtain ⟨c, v, rfl, hc⟩ := hvalue
  cases blanks with
  | zero => exact settled_cons hc
  | succ n =>
    have hdrop : (List.replicate (n + 1) ' ' ++ (c :: v ++ s)).dropWhile isSpace =
        (' ' :: c :: (v ++ s)).dropWhile isSpace := by
      rw [List.dropWhile_append_of_pos fun d hd => by rw [List.eq_of_mem_replicate hd]; rfl]
      rfl
    have hone : skipWhitespace true (' ' :: c :: (v ++ s)) = c :: (v ++ s) := autoskip_blank hc
    show skipWhitespace true (List.replicate (n + 1) ' ' ++ (c :: v ++ s)) = _
    unfold skipWhitespace at hone ⊢
    rw [hdrop]
    exact hone

/-- The names with parsers that are modelled. -/
def knownNames : List Text :=
  ["Call-ID".toList, "Contact".toList, "Content-Length".toList, "Content-Type".toList,
    "CSeq".toList, "Expires".toList, "From".toList, "Max-Forwards".toList, "Min-Expires".toList,
    "To".toList, "Via".toList]

lemma token_of_known : ∀ hname ∈ knownNames, hname ≠ [] ∧ ∀ c ∈ hname, tokenSpec c = true := by
  decide

lemma isHdr_of_known (hname : Text) (hname_mem : hname ∈ knownNames) (hvalue : Visible value)
    (h : ∀ s, isSpace (cur s) = false →
      Reads (hdrParser others hname) (value ++ '\r' :: '\n' :: s) hdrs s) :
    IsHdr others (hname ++ ':' :: ' ' :: value ++ crlf) hdrs :=
  isHdr_of_reads (token_of_known hname hname_mem).1 (token_of_known hname hname_mem).2
    (Or.inr hvalue) h

lemma visible_of_forall (hne : text ≠ []) (h : ∀ c ∈ text, 32 < c.toNat) : Visible text := by
  obtain ⟨c, v, rfl⟩ := List.exists_cons_of_ne_nil hne
  exact ⟨c, v, rfl, h c List.mem_cons_self⟩

lemma visible_utoa (n : ℕ) : Visible (utoa n) := visible_of_forall (utoa_ne_nil n) fun c hc =>
  paramSpec_token.visible c (tokenSpec_of_isDigit (isDigit_of_mem_utoa hc))

lemma visible_fromto (hdr : FromToHdr) : Visible hdr.value := by
  have hctx : Context.fromtoHdr ≠ .reqUri := by decide
  obtain ⟨c, v, htext, hc, -⟩ := cur_print hdr.uri [] hctx
  rw [List.append_nil] at htext
  rw [value_eq, htext]
  exact ⟨c, _, rfl, hc⟩

lemma visible_contact (hdr : ContactHdr) : Visible hdr.value := by
  have hctx : Context.contactHdr ≠ .reqUri := by decide
  obtain ⟨c, v, htext, hc, -⟩ := cur_print hdr.uri [] hctx
  rw [List.append_nil] at htext
  rw [contact_value_eq, htext]
  exact ⟨c, _, rfl, hc⟩

/-! ### Values -/

lemma reads_genericIntHdr {v : ℤ} (hv : IsInt32 v) (hs : isSpace (cur s) = false) :
    Reads parseGenericIntHdr (printIntHdr v ++ '\r' :: '\n' :: s) v s := by
  have hget : Reads (scanGet true digitSpec) (printIntHdr v ++ '\r' :: '\n' :: s) (printIntHdr v)
      ('\r' :: '\n' :: s) :=
    Reads.scanGet (utoa_ne_nil _) (fun c hc => isDigit_of_mem_utoa hc) rfl (settled_crlf hs)
  have hval := parseIntHdr_printIntHdr hv
  refine hget.bind ((reads_hdrEnd s).bind ?_)
  rw [hval]
  exact .pure _ _

lemma reads_hdrCallId {id : Text} (hid : Visible id) (h : ∀ c ∈ id, notNewline c = true)
    (hs : isSpace (cur s) = false) :
    Reads parseHdrCallId (id ++ '\r' :: '\n' :: s) id s := by
  have hne : id ≠ [] := by
    obtain ⟨c, v, rfl, -⟩ := hid
    exact List.cons_ne_nil c v
  exact (Reads.scanGet hne h rfl (settled_crlf hs)).bind ((reads_hdrEnd s).bind (.pure _ _))

lemma reads_hdrCseq {n : ℕ} {method : Text} (hn : (n : ℤ) ≤ maxInt32) (hne : method ≠ [])
    (hmethod : ∀ c ∈ method, tokenSpec c = true) (hs : isSpace (cur s) = false) :
    Reads parseHdrCseq (utoa n ++ ' ' :: method ++ '\r' :: '\n' :: s) (n, methodInit method) s := by
  obtain ⟨c, v, heq, hc⟩ := visible_of_forall hne fun c hc =>
    paramSpec_token.visible c (hmethod c hc)
  have hskip : autoskip true (' ' :: (method ++ '\r' :: '\n' :: s)) =
      method ++ '\r' :: '\n' :: s := by
    rw [heq]
    exact autoskip_blank hc
  rw [List.append_assoc, List.cons_append]
  refine (Reads.scanGet_skip (utoa_ne_nil n) (fun c hc => isDigit_of_mem_utoa hc) rfl hskip).bind ?_
  refine (reads_strtoiValidate hn).bind ?_
  refine (Reads.scanGet hne hmethod rfl (settled_crlf hs)).bind ?_
  exact (reads_hdrEnd s).bind (.pure _ _)

/-- The parameters of a Content-Type header are kept in their order. -/
lemma folds_append (params x : List Param) :
    Folds (fun x q => pure (x ++ [q])) x params (x ++ params) := by
  induction params generalizing x with
  | nil =>
    rw [List.append_nil]
    exact .nil x
  | cons q params ih =>
    have htail := ih (x ++ [q])
    rw [List.append_assoc, List.singleton_append] at htail
    exact .cons (fun s => .pure _ s) htail

lemma reads_hdrContentType {type subtype : Text} {param : List Param}
    (htype : type ≠ [] ∧ ∀ c ∈ type, tokenSpec c = true)
    (hsubtype : subtype ≠ [] ∧ ∀ c ∈ subtype, tokenSpec c = true)
    (hparam : ∀ q ∈ param, q.Printable) (hs : isSpace (cur s) = false) :
    Reads parseHdrContentType
      (type ++ '/' :: (subtype ++ printParams tokenSpec ';' param) ++ '\r' :: '\n' :: s)
      (type, subtype, param.map Param.read) s := by
  have hcrlf : Settled true ('\r' :: '\n' :: s) := settled_crlf hs
  have hends : EndsParam tokenSpec true ('\r' :: '\n' :: s) := ⟨rfl, by simp, hcrlf⟩
  have hloop := loops_params paramSpec_token (fun q hq => written_of_mem paramSpec_token hparam hq)
    hends (by simp) (folds_append ((param.map (Param.written tokenSpec)).map Param.read) [])
  rw [map_read_written paramSpec_token hparam, List.nil_append] at hloop
  have htext : type ++ '/' :: (subtype ++ printParams tokenSpec ';' param) ++ '\r' :: '\n' :: s =
      type ++ '/' :: (subtype ++ (paramsText (param.map (Param.written tokenSpec)) ++
        '\r' :: '\n' :: s)) := by
    rw [printParams_eq]
    simp
  -- after the subtype the parameters begin, or the line ends
  have hafter : tokenSpec (cur (paramsText (param.map (Param.written tokenSpec)) ++
      '\r' :: '\n' :: s)) = false ∧ Settled true (paramsText
        (param.map (Param.written tokenSpec)) ++ '\r' :: '\n' :: s) := by
    cases param with
    | nil => exact ⟨rfl, hcrlf⟩
    | cons q params => exact ⟨rfl, settled_cons (by decide)⟩
  have hsubvisible : Settled true (subtype ++ (paramsText (param.map (Param.written tokenSpec)) ++
      '\r' :: '\n' :: s)) :=
    settled_of_visible hsubtype.1 fun c hc => paramSpec_token.visible c (hsubtype.2 c hc)
  rw [htext]
  refine (Reads.scanGet htype.1 htype.2 rfl (settled_cons (by decide))).bind ?_
  refine (Reads.scanGetChar (by decide) hsubvisible).bind ?_
  refine (Reads.scanGet hsubtype.1 hsubtype.2 hafter.1 hafter.2).bind ?_
  exact hloop.reads_loop.bind ((reads_hdrEnd s).bind (.pure _ _))

/-! ### Headers -/

lemma reads_hdrGeneric {name hvalue : Text} (hname : findHandler others name = none)
    (hvisible : hvalue = [] ∨ Visible hvalue) (h : ∀ c ∈ hvalue, notNewline c = true)
    (hs : isSpace (cur s) = false) :
    Reads (hdrParser others name) (hvalue ++ '\r' :: '\n' :: s) [.generic name hvalue] s := by
  have hread : Reads parseGenericStringHdr (hvalue ++ '\r' :: '\n' :: s) hvalue s := by
    rcases hvisible with rfl | hvisible
    · have hloop : Reads parseGenericString ('\r' :: '\n' :: s) [] ('\r' :: '\n' :: s) :=
        (Loops.done rfl).reads_loop
      exact hloop.bind ((reads_hdrEnd s).bind (.pure _ _))
    · exact reads_genericStringHdr hs (List.cons_ne_nil hvalue []) fun f hf =>
        List.mem_singleton.1 hf ▸ ⟨hvisible, h⟩
  unfold hdrParser
  rw [hname]
  exact hread.map _

lemma reads_hdrContactStar (hs : isSpace (cur s) = false) :
    Reads (parseHdrContact (H := H)) ('*' :: '\r' :: '\n' :: s) [.contactStar] s := by
  have hstar : Reads (parseContact (H := H)) ('*' :: '\r' :: '\n' :: s) .contactStar
      ('\r' :: '\n' :: s) := by
    refine (Reads.curChar _).bind ?_
    rw [cur_cons, if_pos rfl]
    exact (Reads.scanGetChar (by decide) (settled_crlf hs)).bind (.pure _ _)
  exact (reads_commaList hstar (by simp)).bind ((reads_hdrEnd s).bind (.pure _ _))

/-- A header that can be read back is a line that is read. -/
theorem isHdr_lineOf (hdr : Hdr H) (h : hdr.Printable others) :
    IsHdr others (hdr.print others ++ crlf) [hdr.received] := by
  cases hdr with
  | via hdr =>
    have hvisible : Visible hdr.value := by
      rw [via_value_eq]
      exact ⟨'S', _, rfl, by decide⟩
    exact isHdr_of_known "Via".toList (by decide) hvisible fun s hs =>
      (reads_hdrVia h hs).map _
  | fromHdr hdr =>
    exact isHdr_of_known "From".toList (by decide) (visible_fromto hdr) fun s hs =>
      (reads_hdrFromto h hs).map _
  | toHdr hdr =>
    exact isHdr_of_known "To".toList (by decide) (visible_fromto hdr) fun s hs =>
      (reads_hdrFromto h hs).map _
  | callId id =>
    exact isHdr_of_known "Call-ID".toList (by decide) h.1 fun s hs =>
      (reads_hdrCallId h.1 h.2 hs).map _
  | cseq seq method =>
    obtain ⟨⟨hpos, hmax⟩, hne, hmethod⟩ := h
    obtain ⟨n, rfl⟩ := Int.eq_ofNat_of_zero_le hpos
    -- a number that is not negative is printed as it is
    have hlong : toULong n = n := toULong_natCast (by rw [maxInt32] at hmax; omega)
    have hvalue : (Hdr.cseq n method : Hdr H).value = utoa n ++ ' ' :: method := by
      show utoa (toULong n) ++ ' ' :: method = _
      rw [hlong]
    refine isHdr_of_known "CSeq".toList (by decide) ?_ fun s hs => ?_
    · rw [hvalue]
      exact (visible_utoa n).append _
    · rw [hvalue]
      exact (reads_hdrCseq hmax hne hmethod hs).map _
  | contact hdr =>
    exact isHdr_of_known "Contact".toList (by decide) (visible_contact hdr) fun s hs =>
      reads_hdrContact h hs
  | contactStar =>
    exact isHdr_of_known "Contact".toList (by decide) ⟨'*', _, rfl, by decide⟩ fun s hs =>
      reads_hdrContactStar hs
  | maxForwards ivalue =>
    exact isHdr_of_known "Max-Forwards".toList (by decide) (visible_utoa _) fun s hs =>
      (reads_genericIntHdr h hs).map _
  | expires ivalue =>
    exact isHdr_of_known "Expires".toList (by decide) (visible_utoa _) fun s hs =>
      (reads_genericIntHdr h hs).map _
  | minExpires ivalue =>
    exact isHdr_of_known "Min-Expires".toList (by decide) (visible_utoa _) fun s hs =>
      (reads_genericIntHdr h hs).map _
  | contentLength len =>
    exact isHdr_of_known "Content-Length".toList (by decide) (visible_utoa _) fun s hs =>
      (reads_genericIntHdr h hs).map _
  | contentType type subtype param =>
    obtain ⟨htype, hsubtype, hparam⟩ := h
    have hvisible : Visible type := visible_of_forall htype.1 fun c hc =>
      paramSpec_token.visible c (htype.2 c hc)
    exact isHdr_of_known "Content-Type".toList (by decide) (hvisible.append _) fun s hs =>
      (reads_hdrContentType htype hsubtype hparam hs).map _
  | generic name hvalue =>
    obtain ⟨⟨hne, htoken⟩, ⟨hname, -⟩, hvisible, hvalue⟩ := h
    exact isHdr_of_reads hne htoken hvisible fun s hs => reads_hdrGeneric hname hvisible hvalue hs
  | other hdr => exact h.1

/-! ### The first line -/

/-- A first line that is read back. -/
def Line.Printable : Line → Prop
  | .request method (.sip url) => (method ≠ [] ∧ ∀ c ∈ method, tokenSpec c = true) ∧
      stricmp method "SIP".toList = false ∧ url.Printable .reqUri
  | .request _ (.other _ _) => False
  | .status code reason => (100 ≤ code ∧ code ≤ 999) ∧ (reason = [] ∨ Visible reason) ∧
      ∀ c ∈ reason, notNewline c = true

/-- What is read of a first line that was printed. -/
def Line.received : Line → Line
  | .request method uri => .request (methodInit method) (uri.received .reqUri)
  | .status code reason => .status code reason

/-- A word that is no `SIP` is not taken for a version. -/
lemma reads_isNextSipVersion_false (hsip : stricmp text "SIP".toList = false)
    (htoken : ∀ c ∈ text, tokenSpec c = true) :
    Reads isNextSipVersion (text ++ ' ' :: s) false (text ++ ' ' :: s) := by
  have hempty : (text ++ ' ' :: s).isEmpty = false := by simp
  have hpeek : Reads (scanPeek alphaSpec) (text ++ ' ' :: s)
      ((text ++ ' ' :: s).takeWhile alphaSpec, cur ((text ++ ' ' :: s).dropWhile alphaSpec))
      (text ++ ' ' :: s) := by
    show scanPeek alphaSpec _ = _
    rw [scanPeek, hempty]
    rfl
  refine hpeek.bind ?_
  show Reads (pure (_ && stricmp ((text ++ ' ' :: s).takeWhile alphaSpec) _)) _ _ _
  by_cases halpha : ∀ c ∈ text, alphaSpec c = true
  · rw [takeWhile_append halpha rfl, hsip, Bool.and_false]
    exact .pure _ _
  · -- the word goes on with a character that stands after no version
    have hrest : text.dropWhile alphaSpec ≠ [] := fun hnil =>
      halpha (List.dropWhile_eq_nil_iff.1 hnil)
    obtain ⟨c, v, hcv⟩ := List.exists_cons_of_ne_nil hrest
    have hmem : c ∈ text := (List.dropWhile_sublist alphaSpec).subset (hcv ▸ List.mem_cons_self)
    have hcur : cur ((text ++ ' ' :: s).dropWhile alphaSpec) = c := by
      rw [List.dropWhile_append, hcv]
      rfl
    have hstop : (c == '/' || c == ' ' || c == '\t') = false := by
      rw [Bool.eq_false_iff]
      intro hc
      rw [Bool.or_eq_true, Bool.or_eq_true, beq_iff_eq, beq_iff_eq, beq_iff_eq] at hc
      rcases hc with (rfl | rfl) | rfl <;> exact absurd (htoken _ hmem) (by decide)
    rw [hcur, hstop, Bool.false_and]
    exact .pure _ _

lemma starts_of_visible (h : Visible text) : Starts text := by
  obtain ⟨c, v, rfl, hc⟩ := h
  exact starts_cons hc v

/-- The version at the end of a request line. -/
lemma reads_version (hs : isSpace (cur s) = false) :
    Reads parseSipVersion ("SIP/2.0".toList ++ '\r' :: '\n' :: s) () ('\r' :: '\n' :: s) :=
  reads_sipVersion (settled_crlf hs)

lemma isFirst_request {method : Text} {url : SipUri}
    (h : (Line.request method (.sip url)).Printable) :
    IsFirst (Line.request method (.sip url)).print (Line.request method (.sip url)).received := by
  obtain ⟨⟨hne, htoken⟩, hsip, hurl⟩ := h
  obtain ⟨hsne, hstoken, -⟩ := schemeName_facts url
  have hvisible : Visible method := visible_of_forall hne fun c hc =>
    paramSpec_token.visible c (htoken c hc)
  refine ⟨starts_of_visible (hvisible.append _), fun s hs => ?_⟩
  have htext : (Line.request method (.sip url)).print ++ s = method ++ ' ' ::
      (url.print .reqUri ++ ' ' :: ("SIP/2.0".toList ++ '\r' :: '\n' :: s)) := by
    show method ++ ' ' :: (url.print .reqUri ++ " SIP/2.0\r\n".toList) ++ s = _
    simp
  -- the blank before the URI, and the one after it, are passed over
  have hskip : autoskip true (' ' :: (url.print .reqUri ++ ' ' ::
      ("SIP/2.0".toList ++ '\r' :: '\n' :: s))) =
      url.print .reqUri ++ ' ' :: ("SIP/2.0".toList ++ '\r' :: '\n' :: s) := by
    obtain ⟨c, v, heq, hc⟩ := visible_of_forall hsne fun c hc =>
      paramSpec_token.visible c (hstoken c hc)
    rw [print_eq_schemeName, heq]
    exact autoskip_blank hc
  have hafter : skipWhitespace true (' ' :: ("SIP/2.0".toList ++ '\r' :: '\n' :: s)) =
      "SIP/2.0".toList ++ '\r' :: '\n' :: s := autoskip_blank (c := 'S') (by decide)
  have huri : Reads (parseUri true true)
      (url.print .reqUri ++ ' ' :: ("SIP/2.0".toList ++ '\r' :: '\n' :: s))
      (.sip (url.received .reqUri)) ("SIP/2.0".toList ++ '\r' :: '\n' :: s) := by
    have hends : EndsUri (' ' :: ("SIP/2.0".toList ++ '\r' :: '\n' :: s)) := Or.inr (Or.inr rfl)
    have hread : Reads (parseSipUrl true true) _ _ _ := reads_sipUrl hurl hends
    rw [hafter, print_eq_schemeName] at hread
    rw [print_eq_schemeName]
    exact reads_uri_of_handler hstoken (reads_uriHandler hread)
  rw [htext]
  refine (reads_isNextSipVersion_false hsip htoken).bind ?_
  refine (Reads.scanGet_skip hne htoken rfl hskip).bind (huri.bind ?_)
  exact (reads_version hs).bind ((Reads.scanGetNewline s).bind (.pure _ _))

lemma isFirst_status {code : ℤ} {reason : Text} (h : (Line.status code reason).Printable) :
    IsFirst (Line.status code reason).print (.status code reason) := by
  obtain ⟨⟨hmin, hmax⟩, hvisible, hreason⟩ := h
  obtain ⟨n, rfl⟩ := Int.eq_ofNat_of_zero_le (show 0 ≤ code by omega)
  have hlong : toULong n = n := toULong_natCast (by omega)
  refine ⟨starts_of_visible ⟨'S', _, rfl, by decide⟩, fun s hs => ?_⟩
  obtain ⟨d, v, hdigits, hd⟩ := visible_utoa n
  have htext : (Line.status n reason).print ++ s = "SIP/2.0".toList ++ ' ' ::
      (utoa n ++ ' ' :: (reason ++ '\r' :: '\n' :: s)) := by
    show "SIP/2.0 ".toList ++ (utoa (toULong n) ++ ' ' :: (reason ++ crlf)) ++ s = _
    rw [hlong]
    simp [crlf]
  have hnext : Reads isNextSipVersion ("SIP/2.0".toList ++ ' ' ::
      (utoa n ++ ' ' :: (reason ++ '\r' :: '\n' :: s))) true ("SIP/2.0".toList ++ ' ' ::
      (utoa n ++ ' ' :: (reason ++ '\r' :: '\n' :: s))) := rfl
  have hversion : autoskip true (' ' :: (utoa n ++ ' ' :: (reason ++ '\r' :: '\n' :: s))) =
      utoa n ++ ' ' :: (reason ++ '\r' :: '\n' :: s) := by
    rw [hdigits]
    exact autoskip_blank hd
  have hcode : Reads (strtoiValidate (utoa n) 100 999)
      (reason ++ '\r' :: '\n' :: s) (n : ℤ) (reason ++ '\r' :: '\n' :: s) :=
    reads_strtoiValidate_of_le hmin hmax
  rw [htext]
  refine hnext.bind ((reads_sipVersion hversion).bind ?_)
  rcases hvisible with rfl | ⟨c, u, rfl, hc⟩
  · -- no reason: the blank after the code is passed over, and the line ends
    refine (Reads.scanGet_skip (utoa_ne_nil n) (fun c hc => isDigit_of_mem_utoa hc) rfl
      (autoskip_blank_crlf hs)).bind (hcode.bind ((Reads.curChar _).bind ?_))
    exact (Reads.scanGetNewline s).bind (.pure _ _)
  · have hnewline : isNewline c = false := (Bool.or_eq_false_iff.1
      (starts_of_visible ⟨c, u, rfl, hc⟩).1).2
    refine (Reads.scanGet_skip (utoa_ne_nil n) (fun c hc => isDigit_of_mem_utoa hc) rfl
      (autoskip_blank hc)).bind (hcode.bind ((Reads.curChar _).bind ?_))
    rw [if_neg (by rw [List.cons_append, cur_cons, hnewline]; decide)]
    refine (Reads.scanGet (List.cons_ne_nil c u) hreason rfl (settled_crlf hs)).bind ?_
    exact (Reads.scanGetNewline s).bind (.pure _ _)

/-- A first line that can be read back is read as it was printed. -/
theorem isFirst_print (line : Line) (h : line.Printable) : IsFirst line.print line.received := by
  cases line with
  | request method uri =>
    cases uri with
    | sip url => exact isFirst_request h
    | other scheme content => exact h.elim
  | status code reason => exact isFirst_status h

/-! ### The message -/

lemma lineOf_eq {hdr : Hdr H} (h : hdr.Printable others) :
    lineOf others hdr = hdr.print others ++ crlf := by
  refine if_neg fun hnil => ?_
  have hstarts := (isHdr_lineOf hdr h).starts
  rw [hnil] at hstarts
  exact absurd hstarts.1 (by decide)

/-- The headers as the parser meets them. -/
def hdrLines (others : Others H) (hdr : List (Hdr H)) : List (HdrLine H) :=
  hdr.map fun q => ⟨q.print others ++ crlf, .ok [q.received]⟩

lemma textOf_hdrLines {hdr : List (Hdr H)} (h : ∀ q ∈ hdr, q.Printable others) :
    textOf (hdrLines others hdr) = hdr.flatMap (lineOf others) := by
  rw [textOf, hdrLines, List.flatMap_map]
  exact List.flatMap_congr fun q hq => (lineOf_eq (h q hq)).symm

lemma hdrsOf_hdrLines (hdr : List (Hdr H)) :
    hdrsOf (hdrLines others hdr) = hdr.map Hdr.received := by
  rw [hdrsOf, hdrLines, List.flatMap_map, ← List.flatMap_pure_eq_map]
  rfl

lemma errsOf_hdrLines (hdr : List (Hdr H)) : errsOf (hdrLines others hdr) = [] := by
  rw [errsOf, hdrLines, List.flatMap_map]
  exact List.flatMap_eq_nil_iff.2 fun q _ => rfl

/-- A header that announces a body, with the name and some blanks before the number. -/
def clenLine (hname : Text) (blanks n : ℕ) : Text :=
  hname ++ ':' :: (List.replicate blanks ' ' ++ utoa n)

/-- The line that `pjsip_msg_print` adds for a message without a body. -/
def zeroLine : Text := clenLine "Content-Length".toList 2 0

lemma isHdr_zeroLine : IsHdr others (zeroLine ++ crlf) [.contentLength 0] := by
  obtain ⟨hne, htoken⟩ := token_of_known "Content-Length".toList (by decide)
  have hzero : IsInt32 0 := ⟨by decide, by decide⟩
  refine isHdr_of_skip (List.replicate 2 ' ') hne htoken
    (fun s _ => autoskip_blanks (visible_utoa 0) 2) fun s hs => ?_
  exact (reads_genericIntHdr hzero hs).map _

/-- What is read of a message that was printed. -/
def readMsg (line : Line) (hdr : List (Hdr H)) : Msg H :=
  ⟨line.received, hdr.map Hdr.received ++ [.contentLength 0], none⟩

/-- What the parser makes of a message without a body that was printed. -/
lemma parseMsg_of_printable {line : Line} {hdr : List (Hdr H)} (hline : line.Printable)
    (h : ∀ q ∈ hdr, q.Printable others) :
    parseMsg others (printMsg others line hdr) = some (some (readMsg line hdr), []) := by
  -- the headers, and the line that is added
  let lines : List (HdrLine H) :=
    hdrLines others hdr ++ [⟨zeroLine ++ crlf, .ok [.contentLength 0]⟩]
  have htext : printMsg others line hdr = line.print ++ (textOf lines ++ (crlf ++ [])) := by
    show _ = line.print ++ (textOf (hdrLines others hdr ++ [_]) ++ (crlf ++ []))
    rw [textOf, List.flatMap_append, ← textOf, textOf_hdrLines h, printMsg, List.append_assoc]
    rfl
  have hlines : ∀ l ∈ lines, IsLine others l.text l.result := by
    intro l hl
    rcases List.mem_append.1 hl with hl | hl
    · obtain ⟨q, hq, rfl⟩ := List.mem_map.1 hl
      exact isHdr_lineOf q (h q hq)
    · rw [List.mem_singleton.1 hl]
      exact isHdr_zeroLine
  have hlast : lastRead lines = true := by rw [lastRead, List.getLast?_concat]
  have hhdr : hdrsOf lines = hdr.map Hdr.received ++ [.contentLength 0] := by
    show hdrsOf (hdrLines others hdr ++ [_]) = _
    rw [hdrsOf, List.flatMap_append, ← hdrsOf, hdrsOf_hdrLines]
    rfl
  have herrs : errsOf lines = [] := by
    show errsOf (hdrLines others hdr ++ [_]) = _
    rw [errsOf, List.flatMap_append, ← errsOf, errsOf_hdrLines]
    rfl
  have hne : lines ≠ [] := List.append_ne_nil_of_right_ne_nil _ (List.cons_ne_nil _ _)
  rw [htext, parseMsg_lines [] (isFirst_print line hline) hne hlines, hlast, hhdr, herrs]
  simp [readMsg]

lemma map_received_eq_iff {hdr : List (Hdr H)} :
    hdr.map Hdr.received = hdr ↔ ∀ q ∈ hdr, q.received = q := by
  have hid : hdr.map id = hdr := List.map_id hdr
  constructor
  · exact fun h => List.map_inj_left.1 (h.trans hid.symm)
  · exact fun h => (List.map_congr_left h).trans hid

/-- A message without a body is read, without errors, as what its printed line and headers say, with
the Content-Length header after them; this is the message that was printed exactly when the line and
each header come back as they are. -/
theorem parseMsg_printMsg {line : Line} {hdr : List (Hdr H)} (hline : line.Printable)
    (h : ∀ q ∈ hdr, q.Printable others) :
    ∃ msg, parseMsg others (printMsg others line hdr) = some (some msg, []) ∧
      msg.line = line.received ∧ msg.hdr = hdr.map Hdr.received ++ [.contentLength 0] ∧
      msg.body = none ∧
      (msg = ⟨line, hdr ++ [.contentLength 0], none⟩ ↔
        line.received = line ∧ ∀ q ∈ hdr, q.received = q) := by
  refine ⟨_, parseMsg_of_printable hline h, rfl, rfl, rfl, ?_⟩
  rw [readMsg, Msg.mk.injEq, List.append_left_inj, map_received_eq_iff]
  simp

/-! ### A REGISTER -/

/-- The id of the configuration file of the repository at a host. -/
def sampleUrl (port : ℤ) : SipUri := plainUri "11000000002000000001".toList "127.0.0.1".toList port

lemma printable_sampleUrl (ctx : Context) {port : ℤ} (hport : 0 ≤ port ∧ port ≤ 65535) :
    (sampleUrl port).Printable ctx :=
  printable_plainUri ctx (by decide) (by decide) (by decide) hport

/-- A contact with some `q` value. -/
def sampleContact (q1000 : ℤ) : ContactHdr :=
  { uri := ⟨[], .sip (sampleUrl 5060)⟩, q1000 := q1000 }

lemma printable_sampleContact {q1000 : ℤ} (h : 0 ≤ q1000 ∧ q1000 < 2147483000) :
    (sampleContact q1000).Printable where
  uri := ⟨Or.inl rfl, printable_sampleUrl _ (by decide)⟩
  q1000 := h
  expires := by
    show (-1 : ℤ) ≤ -1 ∧ (-1 : ℤ) ≤ maxInt32
    decide
  other_param := fun q hq => by simp [sampleContact] at hq

/-- The Via header of a request. -/
def sampleVia : ViaHdr where
  transport := "udp".toList
  host := "127.0.0.1".toList
  port := 5060
  rport_param := 0
  branch_param := "z9hG4bKPj-1".toList

lemma printable_sampleVia : sampleVia.Printable where
  transport_ne_nil := by decide
  transport := by decide
  host := Or.inl (by decide)
  port := by decide
  ttl_param := by decide
  rport_param := by decide
  maddr_param := by decide
  recvd_param := by decide
  branch_param := by
    show ∀ c ∈ _, _
    decide
  other_param := fun q hq => by simp [sampleVia] at hq

/-- The headers of a REGISTER like those of SipSubService. -/
def sampleHdrs : List (Hdr Empty) :=
  [.via sampleVia, .fromHdr ⟨⟨[], .sip (sampleUrl 0)⟩, "tag1".toList, []⟩,
    .toHdr ⟨⟨[], .sip (sampleUrl 0)⟩, [], []⟩, .callId "2mdIf8lexOTBIMg2pPgKOBdD".toList,
    .cseq 4711 "REGISTER".toList, .contact (sampleContact 0), .maxForwards 70, .expires 60]

lemma printable_sampleHdrs : ∀ q ∈ sampleHdrs, q.Printable noOthers := by
  have hfrom : ∀ tag : Text, (∀ c ∈ tag, c.toNat < 256) →
      (⟨⟨[], .sip (sampleUrl 0)⟩, tag, []⟩ : FromToHdr).Printable := fun tag htag =>
    ⟨⟨Or.inl rfl, printable_sampleUrl _ (by decide)⟩, htag, fun q hq => by simp at hq⟩
  intro q hq
  simp only [sampleHdrs, List.mem_cons, List.not_mem_nil, or_false] at hq
  rcases hq with rfl | rfl | rfl | rfl | rfl | rfl | rfl | rfl
  · exact printable_sampleVia
  · exact hfrom _ (by decide)
  · exact hfrom _ (by decide)
  · exact ⟨⟨'2', _, rfl, by decide⟩, by decide⟩
  · exact ⟨by decide, by decide, by decide⟩
  · exact printable_sampleContact (by decide)
  · exact ⟨by decide, by decide⟩
  · exact ⟨by decide, by decide⟩

/-- The line of such a REGISTER. -/
def sampleLine : Line := .request "REGISTER".toList (.sip (sampleUrl 5061))

lemma printable_sampleLine : sampleLine.Printable :=
  ⟨by decide, by decide, printable_sampleUrl _ (by decide)⟩

theorem parseMsg_sampleRegister :
    ∃ msg, parseMsg noOthers (printMsg noOthers sampleLine sampleHdrs) = some (some msg, []) ∧
      msg.line = sampleLine.received ∧
      msg.hdr = sampleHdrs.map Hdr.received ++ [.contentLength 0] ∧ msg.body = none ∧
      (msg = ⟨sampleLine, sampleHdrs ++ [.contentLength 0], none⟩ ↔
        sampleLine.received = sampleLine ∧ ∀ q ∈ sampleHdrs, q.received = q) :=
  parseMsg_printMsg printable_sampleLine printable_sampleHdrs

/-! ### What comes back -/

/-- What follows a header that was read is not part of it. -/
lemma isHdr_unique {hdrs' : List (Hdr H)} (h : IsHdr others text hdrs)
    (h' : IsHdr others text hdrs') : hdrs = hdrs' :=
  (Reads.unique (h [] rfl) (h' [] rfl)).1

lemma visible_folded {lines : List Text} (hne : lines ≠ []) (h : ∀ f ∈ lines, ValueLine f) :
    Visible (foldedText lines) := by
  obtain ⟨f, lines, rfl⟩ := List.exists_cons_of_ne_nil hne
  have hf := (h f List.mem_cons_self).1
  cases lines with
  | nil => exact hf
  | cons g lines => exact hf.append _

/-- Of a header that has no parser of its own and is written over several lines the last one or two
are read, so it comes back as a whole if and only if there are at most two lines. -/
theorem folded_iff {hname : Text} {lines : List Text} (hname_ne_nil : hname ≠ [])
    (htoken : ∀ c ∈ hname, tokenSpec c = true) (hfind : findHandler others hname = none)
    (hne : lines ≠ []) (h : ∀ f ∈ lines, ValueLine f) :
    IsHdr others (hname ++ ':' :: ' ' :: foldedText lines ++ crlf)
        [.generic hname (lastLines lines)] ∧
      (IsHdr others (hname ++ ':' :: ' ' :: foldedText lines ++ crlf)
        [.generic hname (unfolded lines)] ↔ lines.length ≤ 2) := by
  have hread : IsHdr others (hname ++ ':' :: ' ' :: foldedText lines ++ crlf)
      [.generic hname (lastLines lines)] := by
    refine isHdr_of_reads hname_ne_nil htoken (Or.inr (visible_folded hne h)) fun s hs => ?_
    unfold hdrParser
    rw [hfind]
    exact (reads_genericStringHdr hs hne h).map _
  rw [← lastLines_eq_iff]
  refine ⟨hread, ?_⟩
  constructor
  · intro hwhole
    have heq := isHdr_unique hread hwhole
    rw [List.cons.injEq, Hdr.generic.injEq] at heq
    exact heq.1.2
  · intro heq
    rwa [← heq]

/-- Of three lines only the last one is left. -/
theorem folded_threeLines :
    IsHdr noOthers ("Subject: one\r\n two\r\n three\r\n".toList)
        [.generic "Subject".toList "three".toList] ∧
      ¬IsHdr noOthers ("Subject: one\r\n two\r\n three\r\n".toList)
        [.generic "Subject".toList "one two three".toList] := by
  have hname : ∀ c ∈ "Subject".toList, tokenSpec c = true := by decide
  have hlines : ∀ f ∈ ["one".toList, "two".toList, "three".toList], ValueLine f := by
    intro f hf
    simp only [List.mem_cons, List.not_mem_nil, or_false] at hf
    rcases hf with rfl | rfl | rfl
    · exact ⟨⟨'o', _, rfl, by decide⟩, by decide⟩
    · exact ⟨⟨'t', _, rfl, by decide⟩, by decide⟩
    · exact ⟨⟨'t', _, rfl, by decide⟩, by decide⟩
  have hfind : findHandler noOthers "Subject".toList = none := rfl
  obtain ⟨hlast, hwhole⟩ := folded_iff (by decide) hname hfind (by decide) hlines
  exact ⟨hlast, fun h => absurd (hwhole.1 h) (by decide)⟩

/-- The `q` value of a Contact header comes back if and only if its fraction does not begin with a
zero. -/
theorem q_iff {hdr : ContactHdr} (h : hdr.Printable) :
    (∃ hdr', IsHdr others ((Hdr.contact hdr : Hdr H).print others ++ crlf) [.contact hdr'] ∧
      hdr'.q1000 = hdr.q1000) ↔ hdr.q1000 % 1000 = 0 ∨ 100 ≤ hdr.q1000 % 1000 := by
  have hread : IsHdr others ((Hdr.contact hdr : Hdr H).print others ++ crlf)
      [.contact hdr.received] := isHdr_lineOf (.contact hdr) h
  rw [← receivedQ_eq_iff]
  constructor
  · rintro ⟨hdr', hread', heq⟩
    have hsame := isHdr_unique hread hread'
    rw [List.cons.injEq, Hdr.contact.injEq] at hsame
    rw [← hsame.1] at heq
    exact heq
  · exact fun heq => ⟨hdr.received, hread, heq⟩

/-- `q=0.05` is written as `q=0.5`. -/
theorem q_fiveHundredths : (∃ hdr', IsHdr noOthers
    ((Hdr.contact (sampleContact 50) : Hdr Empty).print noOthers ++ crlf) [.contact hdr'] ∧
      hdr'.q1000 = (sampleContact 50).q1000) ↔ (50 : ℤ) % 1000 = 0 ∨ 100 ≤ (50 : ℤ) % 1000 :=
  q_iff (printable_sampleContact (by decide))

end Sip.Wire
