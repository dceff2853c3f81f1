import Gb28181.Registration
import Gb28181.Sip.HeaderRoundTrip

/-!
# The From header on its way

SipSubService formats the text of its From header (`setFrom`), the SIP stack parses this text
(`pjsip_parse_uri`) and prints it with a tag into the REGISTER; the stack of the registrar parses
the header, and `parseFromId` prints it once more.  What it gets is the text of the header as
`sentFrom` has it.
-/

namespace Registration

open Conf Lib Lib.Scan Sip Sip.Wire

variable {sipId sipIp s t tag : Text}

/-! ### Texts that nothing is escaped in -/

/-- An id that is written as it is. -/
def PlainId (sipId : Text) : Prop := ∀ c ∈ sipId, userSpec c = true ∧ c ≠ '%'

/-- A tag that is written as it is. -/
def PlainTag (tag : Text) : Prop := tag ≠ [] ∧ ∀ c ∈ tag, tokenSpec c = true ∧ c ≠ '%'

/-- A name or an IPv4 address. -/
def PlainHost (sipIp : Text) : Prop := ∀ c ∈ sipIp, hostSpec c = true

lemma PlainId.toNat_lt (h : PlainId sipId) : ∀ c ∈ sipId, c.toNat < 256 := fun c hc =>
  toNat_lt_of_spec (by decide) (h c hc).1

lemma PlainTag.toNat_lt (h : PlainTag tag) : ∀ c ∈ tag, c.toNat < 256 := fun c hc =>
  toNat_lt_of_spec (by decide) (h.2 c hc).1

/-- The address that the text of `setFrom` stands for. -/
def fromAddr (sipId sipIp : Text) : NameAddr := ⟨[], .sip (plainUri sipId sipIp 0)⟩

lemma hostText_of_plain (h : PlainHost sipIp) : hostText sipIp = sipIp := by
  have hcolon : ':' ∉ sipIp := fun hc => absurd (h ':' hc) (by decide)
  rw [hostText, if_neg fun hc => hcolon hc.1]

/-- It is written in the same way wherever it stands in angle brackets. -/
lemma print_fromAddr (hne : sipId ≠ []) (hId : PlainId sipId) (hIp : PlainHost sipIp)
    {ctx : Context} (hctx : ctx ≠ .reqUri) : (fromAddr sipId sipIp).print ctx =
      '<' :: (Scheme.sip.text ++ ':' :: (sipId ++ '@' :: (sipIp ++ ['>']))) := by
  have huser : escape userSpec sipId = sipId := Percent.encode_eq_self fun c hc => (hId c hc).1
  have hempty : ∀ p, escape p [] = [] := fun p => Percent.encode_nil
  have hhost : (plainUri sipId sipIp 0).hostPart ctx = sipIp := by
    simp [plainUri, SipUri.hostPart, SipUri.portText, SipUri.methodText, SipUri.transportText,
      SipUri.ttlText, SipUri.maddrParamText, SipUri.lrText, SipUri.headerText, pairText, maddrText,
      printParams, hempty, hostText_of_plain hIp]
  have hname : (plainUri sipId sipIp 0).userText = sipId ++ ['@'] := by
    simp [plainUri, SipUri.userText, hne, huser]
  rw [fromAddr, NameAddr.print, if_neg hctx, if_pos rfl, Uri.print, SipUri.print, hhost, hname]
  simp [SipUri.schemeText, plainUri, Scheme.text]

lemma printable_fromAddr (hne : sipId ≠ []) (hId : PlainId sipId) (hIp : PlainHost sipIp)
    (hne' : sipIp ≠ []) (ctx : Context) : (fromAddr sipId sipIp).Printable ctx :=
  ⟨Or.inl rfl, printable_plainUri ctx hne hId.toNat_lt ⟨hne', hIp⟩ (by decide)⟩

/-- Nothing of it is lost. -/
lemma received_fromAddr (hId : PlainId sipId) (ctx : Context) :
    (fromAddr sipId sipIp).received ctx = fromAddr sipId sipIp := by
  have huser : unescape sipId = sipId :=
    Percent.decode_of_notMem fun hc => (hId '%' hc).2 rfl
  have huri : (plainUri sipId sipIp 0).received ctx = plainUri sipId sipIp 0 := by
    have hempty : unescape [] = [] := rfl
    simp [plainUri, SipUri.received, huser, hempty, readValue_of_notMem]
  show (⟨[], .sip ((plainUri sipId sipIp 0).received ctx)⟩ : NameAddr) = _
  rw [huri]
  rfl

/-! ### The way -/

/-- The stack takes the text of `setFrom` for the address. -/
lemma pjsipParseUri_setFrom (hId : Accepted sipId) (hIp : Accepted sipIp) (hId' : PlainId sipId)
    (hIp' : PlainHost sipIp) (h : setFrom sipId sipIp = .ok s) :
    pjsipParseUri s = some (fromAddr sipId sipIp) := by
  have hctx : Context.other ≠ .reqUri := by decide
  have hread : Reads (parseUriOrNameAddr false true) ((fromAddr sipId sipIp).print .other ++ [])
      ((fromAddr sipId sipIp).received .other) [] :=
    reads_uriOrNameAddr (printable_fromAddr hId.ne_nil hId' hIp' hIp.ne_nil _) hctx settled_false
  rw [received_fromAddr hId', List.append_nil, print_fromAddr hId.ne_nil hId' hIp' hctx,
    ← (setFrom_eq_ok h).1] at hread
  have hrun : (parseUriOrNameAddr false true).run.run s = (.ok (fromAddr sipId sipIp), []) := hread
  rw [pjsipParseUri, hrun]
  rfl

/-- The From header that is sent. -/
def fromHdr (sipId sipIp tag : Text) : FromToHdr := ⟨fromAddr sipId sipIp, tag, []⟩

lemma printable_fromHdr (hId : Accepted sipId) (hIp : Accepted sipIp) (hId' : PlainId sipId)
    (hIp' : PlainHost sipIp) (htag : PlainTag tag) : (fromHdr sipId sipIp tag).Printable where
  uri := printable_fromAddr hId.ne_nil hId' hIp' hIp.ne_nil _
  tag := htag.toNat_lt
  other_param := fun q hq => by simp [fromHdr] at hq

lemma received_fromHdr (hId' : PlainId sipId) (htag : PlainTag tag) :
    (fromHdr sipId sipIp tag).received = fromHdr sipId sipIp tag := by
  have htag' : unescape tag = tag := Percent.decode_of_notMem fun hc => (htag.2 '%' hc).2 rfl
  show (⟨(fromAddr sipId sipIp).received .fromtoHdr, unescape tag, []⟩ : FromToHdr) = _
  rw [received_fromAddr hId', htag']
  rfl

/-- Its text is that of `setFrom` with the tag. -/
lemma print_fromHdr (hId : Accepted sipId) (hId' : PlainId sipId) (hIp' : PlainHost sipIp)
    (htag : PlainTag tag) (h : setFrom sipId sipIp = .ok s) :
    (fromHdr sipId sipIp tag).print "From".toList = FromHdr.name ++ (s ++ (tagParam ++ tag)) := by
  have htag' : escape tokenSpec tag = tag := Percent.encode_eq_self fun c hc => (htag.2 c hc).1
  have hctx : Context.fromtoHdr ≠ .reqUri := by decide
  have hvalue : (fromHdr sipId sipIp tag).value = s ++ (tagParam ++ tag) := by
    show (fromAddr sipId sipIp).print .fromtoHdr ++ (pairText _ (escape tokenSpec tag) ++ []) = _
    rw [print_fromAddr hId.ne_nil hId' hIp' hctx, ← (setFrom_eq_ok h).1, htag', pairText,
      if_neg htag.1, paramText, if_neg htag.1]
    simp [tagParam]
  rw [FromToHdr.print, hvalue]
  simp [FromHdr.name]

/-- The window of `parseFromId` begins with the id, and ends with it if it has 20 characters. -/
lemma window_iff (h : setFrom sipId sipIp = .ok s) :
    Sup.substr (FromHdr.name ++ (s ++ (tagParam ++ tag))) 11 20 = .ok sipId ↔
      sipId.length = 20 := by
  have htext : FromHdr.name ++ (s ++ (tagParam ++ tag)) =
      "From: <sip:".toList ++ (sipId ++ '@' :: (sipIp ++ '>' :: (tagParam ++ tag))) := by
    rw [(setFrom_eq_ok h).1]
    simp [FromHdr.name, Scheme.text]
  have hlen : 11 ≤ ("From: <sip:".toList ++
      (sipId ++ '@' :: (sipIp ++ '>' :: (tagParam ++ tag)))).length := by
    rw [List.length_append]
    exact Nat.le_add_right 11 _
  have hdrop : ("From: <sip:".toList ++ (sipId ++ '@' :: (sipIp ++ '>' :: (tagParam ++ tag)))).drop
      11 = sipId ++ '@' :: (sipIp ++ '>' :: (tagParam ++ tag)) := rfl
  rw [htext, Sup.substr, if_pos hlen, hdrop, Except.ok.injEq]
  constructor
  · intro hwindow
    have hlen := congrArg List.length hwindow
    simp only [List.length_take, List.length_append, List.length_cons] at hlen
    have hparam : tagParam.length = 5 := rfl
    omega
  · intro hlen
    rw [← hlen, List.take_left]

/-- Through both stacks the header reaches `parseFromId` with the text that it was sent with, and
so the id is read if and only if it has 20 characters. -/
theorem arrives_iff (hId : Accepted sipId) (hIp : Accepted sipIp) (hId' : PlainId sipId)
    (hIp' : PlainHost sipIp) (h : setFrom sipId sipIp = .ok s) {tag : Tag}
    (htag : PlainTag tag.text) :
    ∃ uri, pjsipParseUri s = some uri ∧ ∀ rest, isSpace (cur rest) = false →
      ∃ hdr, Reads parseHdrFromto ((FromToHdr.mk uri tag.text []).value ++ '\r' :: '\n' :: rest)
          hdr rest ∧
        hdr.print "From".toList = (sentFrom hId hIp tag).text ∧
        (Sup.substr (hdr.print "From".toList) 11 20 = .ok sipId ↔ sipId.length = 20) := by
  refine ⟨_, pjsipParseUri_setFrom hId hIp hId' hIp' h, fun rest hrest => ?_⟩
  have hread := reads_hdrFromto (printable_fromHdr hId hIp hId' hIp' htag) hrest
  rw [received_fromHdr hId' htag] at hread
  have htext :
      (fromHdr sipId sipIp tag.text).print "From".toList = (sentFrom hId hIp tag).text := by
    rw [print_fromHdr hId hId' hIp' htag h, text_sentFrom hId hIp h]
  refine ⟨_, hread, htext, ?_⟩
  rw [print_fromHdr hId hId' hIp' htag h]
  exact window_iff h

/-- The id of the configuration file of the repository arrives. -/
theorem arrives_sampleId : ∃ uri,
    pjsipParseUri "<sip:11000000002000000001@127.0.1>".toList = some uri ∧
      ∀ rest, isSpace (cur rest) = false →
        ∃ hdr, Reads parseHdrFromto
            ((FromToHdr.mk uri sampleTag.text []).value ++ '\r' :: '\n' :: rest) hdr rest ∧
          hdr.print "From".toList = (sentFrom accepted_sampleId accepted_sampleIp sampleTag).text ∧
          (Sup.substr (hdr.print "From".toList) 11 20 = .ok "11000000002000000001".toList ↔
            "11000000002000000001".toList.length = 20) := by
  have hId : PlainId "11000000002000000001".toList := by
    show ∀ c ∈ _, _
    decide
  have hIp : PlainHost "127.0.1".toList := by
    show ∀ c ∈ _, _
    decide
  have htag : PlainTag sampleTag.text := ⟨by decide, by decide⟩
  exact arrives_iff accepted_sampleId accepted_sampleIp hId hIp (by decide) htag

end Registration
