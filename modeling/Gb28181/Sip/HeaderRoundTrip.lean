import Gb28181.Sip.UriRoundTrip

/-!
# From and To headers are read as they were written

The value that is printed for a From or To header, a line end and further lines that do not continue
it are read as the header, up to what `pjsip_url_print` leaves out there (`reads_hdrFromto`).
-/

namespace Sip.Wire

open Lib Lib.Scan

variable {ws : Bool} {s t : Text} {c : Char} {ctx : Context} {uri : Uri} {name : NameAddr}
  {hdr : FromToHdr} {url : SipUri}

/-! ### What can be read back -/

/-- A scheme that has no parser of its own. -/
structure OtherScheme (scheme : Text) : Prop where
  ne_nil : scheme ≠ []
  token : ∀ c ∈ scheme, tokenSpec c = true
  sip : stricmp scheme "sip".toList = false
  sips : stricmp scheme "sips".toList = false
  tel : stricmp scheme "tel".toList = false

/-- A URI whose text in a context is read back. -/
def Uri.Printable (ctx : Context) : Uri → Prop
  | .sip url => url.Printable ctx
  | .other scheme content =>
    OtherScheme scheme ∧ content ≠ [] ∧ ∀ c ∈ content, otherUriContent c = true

/-- What is read of a URI that was written in a context. -/
def Uri.received (ctx : Context) : Uri → Uri
  | .sip url => .sip (url.received ctx)
  | .other scheme content => .other scheme content

/-- A name address whose text in a context is read back: no quote in the display name closes it. -/
structure NameAddr.Printable (ctx : Context) (name : NameAddr) : Prop where
  display : name.display = [] ∨ Quoted ('"' :: (name.display ++ ['"']))
  uri : name.uri.Printable ctx

/-- What is read of a name address that was written in a context. -/
def NameAddr.received (ctx : Context) (name : NameAddr) : NameAddr where
  display := name.display
  uri := name.uri.received ctx

/-- A From or To header whose text is read back. -/
structure FromToHdr.Printable (hdr : FromToHdr) : Prop where
  uri : hdr.uri.Printable .fromtoHdr
  tag : Percent.Bytes hdr.tag
  other_param : ∀ q ∈ hdr.other_param, q.Printable ∧ stricmp q.read.name "tag".toList = false

/-- What is read of a From or To header that was written. -/
def FromToHdr.received (hdr : FromToHdr) : FromToHdr where
  uri := hdr.uri.received .fromtoHdr
  tag := unescape hdr.tag
  other_param := hdr.other_param.map Param.read

/-! ### URIs -/

/-- What `int_parse_uri` does once it has found the scheme. -/
lemma reads_uri_of_handler {scheme : Text}
    (htoken : ∀ c ∈ scheme, tokenSpec c = true)
    (h : Reads (uriHandler scheme ws true) (scheme ++ ':' :: s) uri t) :
    Reads (parseUri ws true) (scheme ++ ':' :: s) uri t := by
  have hpeek : Reads (scanPeek tokenSpec) (scheme ++ ':' :: s) (scheme, ':') (scheme ++ ':' :: s) :=
    Reads.scanPeek (by simp) htoken rfl
  refine hpeek.bind ?_
  show Reads (if ':' = ':' then uriHandler scheme ws true else throw .syntaxError) _ uri t
  rw [if_pos rfl]
  exact h

/-- The name of the scheme of a SIP URI. -/
def SipUri.schemeName (url : SipUri) : Text :=
  if url.secure then "sips".toList else "sip".toList

lemma schemeName_facts (url : SipUri) : url.schemeName ≠ [] ∧
    (∀ c ∈ url.schemeName, tokenSpec c = true) ∧
    (stricmp url.schemeName "sip".toList || stricmp url.schemeName "sips".toList) = true := by
  rw [SipUri.schemeName]
  cases url.secure <;> decide

lemma print_eq_schemeName (url : SipUri) :
    url.print ctx ++ s = url.schemeName ++ ':' :: (url.userText ++ (url.hostPart ctx ++ s)) := by
  rw [SipUri.print, SipUri.schemeText, SipUri.schemeName]
  simp only [List.append_assoc, List.cons_append, List.nil_append]

/-- After the name of its scheme a SIP URI is read by `int_parse_sip_url`. -/
lemma reads_uriHandler {url url' : SipUri} {parse_params : Bool}
    (h : Reads (parseSipUrl ws parse_params) s url' t) :
    Reads (uriHandler url.schemeName ws parse_params) s (.sip url') t := by
  rw [uriHandler, if_pos (schemeName_facts url).2.2]
  exact h.bind (.pure _ _)

/-- A URI in angle brackets is read as it was written. -/
lemma reads_uri (h : uri.Printable ctx) :
    Reads (parseUri ws true) (uri.print ctx ++ '>' :: s) (uri.received ctx) ('>' :: s) := by
  cases uri with
  | sip url =>
    obtain ⟨-, htoken, -⟩ := schemeName_facts url
    have hends : EndsUri ('>' :: s) := Or.inr (Or.inl rfl)
    have hread : Reads (parseSipUrl ws true) (url.print ctx ++ '>' :: s) (url.received ctx)
        (skipWhitespace ws ('>' :: s)) := reads_sipUrl h hends
    rw [skipWhitespace_cons (by decide)] at hread
    show Reads _ (url.print ctx ++ '>' :: s) _ _
    rw [print_eq_schemeName] at hread ⊢
    exact reads_uri_of_handler htoken (reads_uriHandler hread)
  | other scheme content =>
    obtain ⟨hscheme, hne, hcontent⟩ := h
    have hother : ¬(stricmp scheme "sip".toList || stricmp scheme "sips".toList) = true := by
      rw [hscheme.sip, hscheme.sips]
      decide
    have htel : ¬stricmp scheme "tel".toList = true := by
      rw [hscheme.tel]
      decide
    show Reads _ ((scheme ++ ':' :: content) ++ '>' :: s) _ _
    rw [List.append_assoc, List.cons_append]
    refine reads_uri_of_handler hscheme.token ?_
    rw [uriHandler, if_neg hother, if_neg htel]
    refine (Reads.scanGet hscheme.ne_nil hscheme.token rfl settled_false).bind ?_
    refine (reads_expectChar (by decide) settled_false).bind ?_
    exact (Reads.scanGet hne hcontent rfl settled_false).bind (.pure _ _)

/-! ### Name addresses -/

lemma skipWhitespace_autoskip : skipWhitespace ws (autoskip ws (' ' :: '<' :: s)) = '<' :: s := by
  cases ws <;> rfl

lemma dropLast_quoted (w : Text) : ('"' :: (w ++ ['"'])).tail.dropLast = w := by
  rw [List.tail_cons, List.dropLast_concat]

/-- The display name, up to the blanks after it. -/
lemma reads_display (h : name.Printable ctx) (s : Text) (ws : Bool) :
    Reads (do
      let display ← parseDisplay ws
      scanSkipWhitespace ws
      return display)
      ((if name.display = [] then [] else '"' :: (name.display ++ ['"', ' '])) ++ '<' :: s)
      name.display ('<' :: s) := by
  by_cases hnil : name.display = []
  · rw [if_pos hnil, hnil, List.nil_append]
    have hdisplay : Reads (parseDisplay ws) ('<' :: s) [] ('<' :: s) := by
      refine (Reads.curChar _).bind ?_
      rw [cur_cons, if_neg (by decide), if_pos rfl]
      exact .pure _ _
    exact hdisplay.bind
      ((Reads.scanSkipWhitespace (skipWhitespace_cons (by decide))).bind (.pure _ _))
  · have hquoted := h.display.resolve_left hnil
    have htext : '"' :: (name.display ++ ['"', ' ']) ++ '<' :: s =
        '"' :: (name.display ++ ['"']) ++ ' ' :: '<' :: s := by simp
    have hdisplay : Reads (parseDisplay ws) ('"' :: (name.display ++ ['"']) ++ ' ' :: '<' :: s)
        name.display (autoskip ws (' ' :: '<' :: s)) := by
      refine (Reads.curChar _).bind ?_
      rw [List.cons_append, cur_cons, if_pos rfl, ← List.cons_append]
      refine (Reads.scanGetQuote hquoted rfl).bind ?_
      rw [dropLast_quoted]
      exact .pure _ _
    rw [if_neg hnil, htext]
    exact hdisplay.bind ((Reads.scanSkipWhitespace skipWhitespace_autoskip).bind (.pure _ _))

/-- A name address is read as it was written. -/
theorem reads_nameAddr (h : name.Printable ctx) (hctx : ctx ≠ .reqUri) (hs : Settled ws s) :
    Reads (parseNameAddr ws) (name.print ctx ++ s) (name.received ctx) s := by
  have huri : Settled ws (name.uri.print ctx ++ '>' :: s) := by
    cases hu : name.uri with
    | sip url =>
      obtain ⟨hne, htoken, -⟩ := schemeName_facts url
      show Settled ws (url.print ctx ++ '>' :: s)
      rw [print_eq_schemeName]
      exact settled_of_visible hne fun c hc => paramSpec_token.visible c (htoken c hc)
    | other scheme content =>
      have hscheme : OtherScheme scheme := by
        have hprintable := h.uri
        rw [hu] at hprintable
        exact hprintable.1
      show Settled ws ((scheme ++ ':' :: content) ++ '>' :: s)
      rw [List.append_assoc]
      exact settled_of_visible hscheme.ne_nil fun c hc =>
        paramSpec_token.visible c (hscheme.token c hc)
  obtain ⟨display, u, hdisplay, hskip⟩ :=
    reads_bind_iff.1 (reads_display h (name.uri.print ctx ++ '>' :: s) ws)
  obtain ⟨_, v, hskip, hreturn⟩ := reads_bind_iff.1 hskip
  obtain ⟨rfl, rfl⟩ := reads_pure_iff.1 hreturn
  have htext : name.print ctx ++ s =
      (if name.display = [] then [] else '"' :: (name.display ++ ['"', ' '])) ++
        '<' :: (name.uri.print ctx ++ '>' :: s) := by
    rw [NameAddr.print, if_neg hctx]
    simp only [List.append_assoc, List.cons_append, List.nil_append]
  rw [htext]
  refine hdisplay.bind (hskip.bind ((Reads.curChar _).bind ?_))
  rw [cur_cons, if_pos rfl]
  refine (Reads.scanGetChar (by decide) huri).bind ((reads_uri h.uri).bind ?_)
  exact (reads_expectChar (by decide) hs).bind (.pure _ _)

/-! ### Headers -/

/-- The parameters of a header as they are on the wire. -/
def FromToHdr.written (hdr : FromToHdr) : List Param :=
  pairParams "tag".toList (escape tokenSpec hdr.tag) ++
    hdr.other_param.map (Param.written tokenSpec)

lemma value_eq (hdr : FromToHdr) :
    hdr.value = hdr.uri.print .fromtoHdr ++ paramsText hdr.written := by
  rw [FromToHdr.value, FromToHdr.written, paramsText_append, paramsText_pairParams,
    printParams_eq]

lemma written_hdr (h : hdr.Printable) :
    ∀ q ∈ hdr.written, Written tokenSpec q.name q.value := by
  have htag : "tag".toList ≠ [] ∧ ∀ c ∈ "tag".toList, tokenSpec c = true := by decide
  intro q hq
  rw [FromToHdr.written, List.mem_append] at hq
  rcases hq with hq | hq
  · rw [pairParams] at hq
    split at hq
    · simp at hq
    · obtain rfl := List.mem_singleton.1 hq
      exact ⟨htag.1, htag.2, Or.inl fun c hc => paramSpec_token.readable.of_mem_encode hc⟩
  · exact written_of_mem paramSpec_token (fun q hq => (h.other_param q hq).1) hq

lemma addParam_other {q : Param} (h : stricmp q.name "tag".toList = false) :
    hdr.addParam q = { hdr with other_param := hdr.other_param ++ [q] } :=
  if_neg (by rw [h]; exact Bool.false_ne_true)

/-- What the loop of `parse_hdr_fromto` does with a parameter. -/
abbrev keepParam (hdr : FromToHdr) (q : Param) : Parser FromToHdr := pure (hdr.addParam q)

lemma folds_hdr_other (hdr : FromToHdr) {params : List Param}
    (h : ∀ q ∈ params, stricmp q.name "tag".toList = false) :
    Folds keepParam hdr params
      { hdr with other_param := hdr.other_param ++ params } := by
  induction params generalizing hdr with
  | nil =>
    rw [List.append_nil]
    exact .nil hdr
  | cons q params ih =>
    have htail := ih { hdr with other_param := hdr.other_param ++ [q] }
      fun q' hq' => h q' (by simp [hq'])
    rw [List.append_assoc, List.singleton_append] at htail
    refine .cons (fun s => ?_) htail
    rw [keepParam, addParam_other (h q (by simp))]
    exact .pure _ _

/-- The tag, if there is one. -/
lemma folds_tag {name : NameAddr} {tag : Text} (h : Percent.Bytes tag) :
    Folds keepParam ⟨name, [], []⟩ ((pairParams "tag".toList (escape tokenSpec tag)).map
      Param.read) ⟨name, unescape tag, []⟩ := by
  rw [pairParams]
  split
  · next hnil =>
    rw [Percent.encode_eq_nil_iff.1 hnil]
    exact .nil _
  · have hcur : cur (escape tokenSpec tag) ≠ '"' :=
      cur_ne_quote paramSpec_token fun _ hc => paramSpec_token.readable.of_mem_encode hc
    have hread : (⟨"tag".toList, escape tokenSpec tag⟩ : Param).read =
        ⟨"tag".toList, unescape tag⟩ := by
      rw [Param.read, readValue_eq_unescape hcur, unescape_escape paramSpec_token.readable h]
      rfl
    rw [List.map_singleton, hread]
    exact .cons (fun s => Reads.pure _ s) (.nil _)

lemma folds_hdr (h : hdr.Printable) :
    Folds keepParam ⟨hdr.uri.received .fromtoHdr, [], []⟩
      (hdr.written.map Param.read) hdr.received := by
  have hother : (hdr.other_param.map (Param.written tokenSpec)).map Param.read =
      hdr.other_param.map Param.read :=
    map_read_written paramSpec_token fun q hq => (h.other_param q hq).1
  rw [FromToHdr.written, List.map_append, hother]
  refine (folds_tag h.tag).append (folds_hdr_other _ fun q hq => ?_)
  obtain ⟨q', hq', rfl⟩ := List.mem_map.1 hq
  exact (h.other_param q' hq').2

/-- The value of a header, and its parameters, can be seen. -/
lemma settled_written (hs : Settled ws s) : Settled ws (paramsText hdr.written ++ s) := by
  cases hdr.written with
  | nil => exact hs
  | cons q params => exact settled_cons (by decide)

/-- What a name address begins with. -/
lemma cur_print (name : NameAddr) (s : Text) (hctx : ctx ≠ .reqUri) :
    ∃ c v, name.print ctx ++ s = c :: v ∧ 32 < c.toNat ∧ (c = '"' ∨ c = '<') := by
  rw [NameAddr.print, if_neg hctx]
  split
  · exact ⟨'<', _, rfl, by decide, Or.inr rfl⟩
  · exact ⟨'"', _, rfl, by decide, Or.inl rfl⟩

/-- So `int_parse_uri_or_name_addr` takes it for one. -/
lemma reads_uriOrNameAddr {parse_params : Bool} (h : name.Printable ctx) (hctx : ctx ≠ .reqUri)
    (hs : Settled ws s) :
    Reads (parseUriOrNameAddr ws parse_params) (name.print ctx ++ s) (name.received ctx) s := by
  have hread := reads_nameAddr h hctx hs
  obtain ⟨c, v, htext, hvisible, hc⟩ := cur_print name s hctx
  rw [htext] at hread ⊢
  refine (Reads.scanSkipWhitespace (skipWhitespace_cons hvisible)).bind ((Reads.curChar _).bind ?_)
  rw [cur_cons, if_pos hc]
  exact hread

lemma reads_hdrEnd (s : Text) : Reads parseHdrEnd ('\r' :: '\n' :: s) () s :=
  (Reads.isEof _).bind ((Reads.curChar _).bind (Reads.scanGetNewline s))

/-- A From or To header is read as it was written. -/
theorem reads_hdrFromto (h : hdr.Printable) (hs : isSpace (cur s) = false) :
    Reads parseHdrFromto (hdr.value ++ '\r' :: '\n' :: s) hdr.received s := by
  have hcrlf : Settled true ('\r' :: '\n' :: s) := settled_crlf hs
  have hends : EndsParam tokenSpec true ('\r' :: '\n' :: s) := ⟨rfl, by simp, hcrlf⟩
  have hloop := loops_params paramSpec_token (written_hdr h) hends (by simp) (folds_hdr h)
  rw [value_eq, List.append_assoc]
  refine (reads_uriOrNameAddr h.uri (by decide) (settled_written hcrlf)).bind ?_
  exact hloop.reads_loop.bind ((reads_hdrEnd s).bind (.pure _ _))

/-! ### `pjsip_parse_uri` -/

/-- A URI in which no escape stands, and no component that cannot be written. -/
structure SipUri.Plain (url : SipUri) : Prop where
  percent : '%' ∉ url.user ++ url.passwd ++ url.user_param ++ url.method_param ++
    url.transport_param ++ url.maddr_param
  passwd : url.user = [] → url.passwd = []
  maddr_param : ':' ∉ url.maddr_param
  params : ∀ q ∈ url.other_param ++ url.header_param, '%' ∉ q.name ++ q.value

lemma readValue_of_notMem (h : '%' ∉ s) : readValue s = s := by
  rw [readValue, unescape, Percent.decode_of_notMem h, ite_self]

lemma Param.read_eq_self {q : Param} (h : '%' ∉ q.name ++ q.value) : q.read = q := by
  rw [List.mem_append, not_or] at h
  show (⟨unescape q.name, readValue q.value⟩ : Param) = q
  rw [unescape, Percent.decode_of_notMem h.1, readValue_of_notMem h.2]

lemma map_read_eq_self {params : List Param} (h : ∀ q ∈ params, '%' ∉ q.name ++ q.value) :
    params.map Param.read = params := by
  rw [List.map_congr_left fun q hq => Param.read_eq_self (h q hq), List.map_id']

lemma SipUri.Plain.received (h : url.Plain) : url.received .other = url := by
  have hpercent := h.percent
  simp only [List.mem_append, not_or] at hpercent
  obtain ⟨⟨⟨⟨⟨huser, hpasswd⟩, huserParam⟩, hmethod⟩, htransport⟩, hmaddr⟩ := hpercent
  have hother : url.other_param.map Param.read = url.other_param :=
    map_read_eq_self fun q hq => h.params q (List.mem_append_left _ hq)
  have hheader : url.header_param.map Param.read = url.header_param :=
    map_read_eq_self fun q hq => h.params q (List.mem_append_right _ hq)
  have hword : (if url.user = [] then [] else unescape url.passwd) = url.passwd := by
    split
    · next hnil => exact (h.passwd hnil).symm
    · exact Percent.decode_of_notMem hpasswd
  have hread : ∀ w : Text, '%' ∉ w → unescape w = w := fun w hw => Percent.decode_of_notMem hw
  unfold SipUri.received
  rw [hword, hother, hheader, readValue_of_notMem huserParam, if_neg h.maddr_param,
    hread _ huser, hread _ hmethod, hread _ htransport, hread _ hmaddr]
  simp

/-- A text that begins with the name of a scheme is read as a URI, not as a name address. -/
lemma reads_uriOrNameAddr_of_scheme {url' : SipUri} {w : Text}
    (h : Reads (parseSipUrl false true) (url.schemeName ++ ':' :: w) url' t) :
    Reads (parseUriOrNameAddr false true) (url.schemeName ++ ':' :: w) ⟨[], .sip url'⟩ t := by
  have hdisplay : ∀ c ∈ url.schemeName, displaySpec c = true := by
    rw [SipUri.schemeName]
    cases url.secure <;> decide
  obtain ⟨v, hv⟩ : ∃ v, url.schemeName = 's' :: v := by
    rw [SipUri.schemeName]
    cases url.secure
    · exact ⟨_, rfl⟩
    · exact ⟨_, rfl⟩
  have hskip : skipWhitespace false (url.schemeName ++ ':' :: w) = url.schemeName ++ ':' :: w := by
    rw [hv]
    exact skipWhitespace_cons (by decide)
  -- neither a display name nor an angle bracket
  have hcur : ¬(cur (url.schemeName ++ ':' :: w) = '"' ∨
      cur (url.schemeName ++ ':' :: w) = '<') := by
    rw [hv]
    show ¬('s' = '"' ∨ 's' = '<')
    decide
  -- the scheme could be a display name; the colon after it decides
  have hpeek : Reads (scanPeek displaySpec) (url.schemeName ++ ':' :: w) (url.schemeName, ':')
      (url.schemeName ++ ':' :: w) := Reads.scanPeek (by simp) hdisplay rfl
  refine (Reads.scanSkipWhitespace hskip).bind ((Reads.curChar _).bind ?_)
  rw [if_neg hcur]
  refine hpeek.bind ?_
  show Reads (if ':' = ':' then _ else _) _ _ _
  rw [if_pos rfl]
  exact (reads_uriHandler h).bind (.pure _ _)

/-- `pjsip_parse_uri` reads a URI that can be printed from its text, as a whole and with its escapes
decoded; a URI without escapes comes back as it is. -/
theorem pjsipParseUri_print (h : url.Printable .other) :
    pjsipParseUri (url.print .other) = some ⟨[], .sip (url.received .other)⟩ ∧
      (pjsipParseUri (url.print .other) = some ⟨[], .sip url⟩ ↔ url.received .other = url) ∧
      (url.Plain → url.received .other = url) := by
  have hurl : Reads (parseSipUrl false true) (url.print .other ++ []) (url.received .other) [] :=
    reads_sipUrl h (Or.inl rfl : EndsUri [])
  rw [print_eq_schemeName] at hurl
  have hparse := reads_uriOrNameAddr_of_scheme hurl
  rw [← print_eq_schemeName, List.append_nil] at hparse
  have hrun : (parseUriOrNameAddr false true).run.run (url.print .other) =
      (.ok ⟨[], .sip (url.received .other)⟩, []) := hparse
  have huri : pjsipParseUri (url.print .other) = some ⟨[], .sip (url.received .other)⟩ := by
    rw [pjsipParseUri, hrun]
    rfl
  refine ⟨huri, ?_, SipUri.Plain.received⟩
  rw [huri, Option.some.injEq, NameAddr.mk.injEq, Uri.sip.injEq]
  exact and_iff_right rfl

/-- A URI with everything that can be written. -/
def sampleUri : SipUri where
  secure := true
  user := "11000000002000000001".toList
  passwd := "secret".toList
  host := "127.0.0.1".toList
  port := 5060
  transport_param := "tcp".toList
  ttl_param := 5
  lr_param := true
  other_param := [⟨"ob".toList, []⟩]
  header_param := [⟨"Subject".toList, "x y".toList⟩, ⟨"Priority".toList, "low".toList⟩]

lemma printable_sampleUri : sampleUri.Printable .other := by
  refine ⟨?_, Or.inl (by decide), by decide, Or.inl (by decide), ?_, by decide, by decide, ?_, ?_,
    fun h => absurd h (by decide)⟩
  · show ∀ c ∈ _, _
    decide
  · show ∀ c ∈ _, _
    decide
  · intro q hq
    obtain rfl := List.mem_singleton.1 hq
    exact ⟨printable_of_unquoted (by decide) (by decide) (by decide), ⟨by decide, by decide⟩⟩
  · intro q hq
    simp only [sampleUri, List.mem_cons, List.not_mem_nil, or_false] at hq
    rcases hq with rfl | rfl
    · exact ⟨printable_of_unquoted (by decide) (by decide) (by decide), by decide⟩
    · exact ⟨printable_of_unquoted (by decide) (by decide) (by decide), by decide⟩

theorem pjsipParseUri_sampleUri :
    pjsipParseUri (sampleUri.print .other) = some ⟨[], .sip sampleUri⟩ := by
  have hplain : sampleUri.Plain := ⟨by decide, by decide, by decide, by decide⟩
  obtain ⟨-, hback, hreceived⟩ := pjsipParseUri_print printable_sampleUri
  exact hback.2 (hreceived hplain)

end Sip.Wire
