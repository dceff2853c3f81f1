import Gb28181.Lib.Framing
import Gb28181.Sip.MsgRoundTrip

/-!
# Messages from a connection

`pjsip_find_msg` and `pjsip_tpmgr_receive_packet` of the SIP stack, and what a TCP transport does
with the bytes that it has read: a message is taken out of the buffer as soon as the body that its
Content-Length header announces is there, parsed, and handed to the endpoint unless something in it
could not be parsed.
-/

namespace Sip.Wire

open Lib Lib.Scan Lib.Framing

/-! ### The size of a message -/

/-- The results of `pjsip_find_msg` other than `PJ_SUCCESS`. -/
inductive FindStatus where
  /-- `PJSIP_EPARTIALMSG`. -/
  | partialMsg
  /-- `PJSIP_EMISSINGHDR`. -/
  | missingHdr
  /-- `PJSIP_EINVALIDHDR`. -/
  | invalidHdr
  deriving DecidableEq, Repr

/-- Where the first empty line is: the index of the `\n` before it. -/
def endOfHdrs : Text → Option ℕ
  | [] => none
  | c :: s =>
    if c = '\n' ∧ s.take 2 = ['\r', '\n'] then some 0 else (endOfHdrs s).map (· + 1)

/-- The length of the name, if a line begins like a Content-Length header. -/
def clenName (line : Text) : Option ℕ :=
  if stricmp (line.take 14) "Content-Length".toList then some 14
  else if (cur line = 'l' ∨ cur line = 'L') ∧
      (cur line.tail = ' ' ∨ cur line.tail = '\t' ∨ cur line.tail = ':') then some 1
  else none

/-- The length in such a line, after a name of `n` characters. -/
def parseClen (n : ℕ) : Parser ℤ := do
  let _ ← scanGetN true n
  expectChar true ':'
  let clen ← scanGet true digitSpec
  scanGetNewline
  strtoiValidate clen 0 maxInt32

/-- The status of an exception. -/
def findStatus : ParseError → FindStatus
  | .einval => .invalidHdr
  | _ => .missingHdr

/-- The loop over the `n` characters up to the empty line: the content length, or the status of the
last line that could not be parsed. -/
def findClen : ℕ → Text → Option FindStatus → Except (Option FindStatus) ℤ
  | 0, _, status => .error status
  | _ + 1, [], status => .error status
  | n + 1, c :: s, status =>
    if c = '\n' then
      match clenName s with
      | some len =>
        match (parseClen len).run.run s with
        | (.ok clen, _) => .ok clen
        | (.error e, _) => findClen n s (some (findStatus e))
      | none => findClen n s status
    else findClen n s status

/-- `pjsip_find_msg` for a stream: the size of the first message. -/
def findMsg (buf : Text) : Except FindStatus ℕ :=
  match endOfHdrs buf with
  | none => .error .partialMsg
  | some pos =>
    match findClen (pos + 1) buf none with
    | .ok clen =>
      let msg_size := pos + 3 + clen.toNat
      if msg_size ≤ buf.length then .ok msg_size else .error .partialMsg
    | .error (some status) => .error status
    | .error none => .ok buf.length

/-- The size, if `pjsip_find_msg` succeeds. -/
def msgSize (buf : Text) : Option ℕ := (findMsg buf).toOption

/-! ### The transport manager -/

/-- `PJSIP_MAX_PKT_LEN`. -/
def maxPktLen : ℕ := 4000

/-- The status with which the endpoint gets a message. -/
inductive RxStatus where
  | success
  /-- `PJSIP_EMISSINGHDR`. -/
  | missingHdr
  /-- `PJSIP_EINVALIDSTATUS`. -/
  | invalidStatus
  deriving DecidableEq, Repr

/-- A call of `on_rx_msg`. -/
structure Upcall (H : Type) where
  status : RxStatus
  msg : Msg H
  deriving DecidableEq, Repr

variable {H : Type} (others : Others H)

/-- A message has the headers that every message has to have. -/
def hasBasicHdrs (hdrs : List (Hdr H)) : Bool :=
  (hdrs.any fun hdr => match hdr with | .callId id => !id.isEmpty | _ => false) &&
  (hdrs.any fun hdr => match hdr with | .fromHdr _ => true | _ => false) &&
  (hdrs.any fun hdr => match hdr with | .toHdr _ => true | _ => false) &&
  (hdrs.any fun hdr => match hdr with | .via _ => true | _ => false) &&
  (hdrs.any fun hdr => match hdr with | .cseq _ _ => true | _ => false)

/-- The first Via header of a request gets the address that the request came from. -/
def markVia (src_name : Text) (src_port : ℤ) : List (Hdr H) → List (Hdr H)
  | [] => []
  | .via hdr :: hdrs =>
    .via { hdr with
      recvd_param := src_name
      rport_param := if hdr.rport_param = 0 then src_port else hdr.rport_param } :: hdrs
  | hdr :: hdrs => hdr :: markVia src_name src_port hdrs

/-- What `pjsip_tpmgr_receive_packet` does with a message: one that cannot be parsed as a whole is
dropped. -/
def receiveMsg (src_name : Text) (src_port : ℤ) (text : Text) : List (Upcall H) :=
  match parseMsg others text with
  | some (some msg, []) =>
    if !hasBasicHdrs msg.hdr then [⟨.missingHdr, msg⟩]
    else match msg.line with
      | .request _ _ => [⟨.success, { msg with hdr := markVia src_name src_port msg.hdr }⟩]
      | .status code _ =>
        if code < 100 ∨ 700 ≤ code then [⟨.invalidStatus, msg⟩] else [⟨.success, msg⟩]
  | _ => []

/-- A TCP transport with what it has read so far; `frames` are the messages that it has taken out. -/
abbrev TcpTransport := Receiver Char

/-- `on_data_read`: bytes arrive. -/
def onDataRead (tcp : TcpTransport) (data : Text) : TcpTransport :=
  tcp.read msgSize isNewline maxPktLen data

/-- The bytes of a connection arrive. -/
def connection (pieces : List Text) : TcpTransport := pieces.foldl onDataRead {}

/-- What the endpoint gets from it. -/
def upcalls (src_name : Text) (src_port : ℤ) (tcp : TcpTransport) : List (Upcall H) :=
  tcp.frames.flatMap (receiveMsg others src_name src_port)

/-! ### Lines -/

section Lines

variable {s text y line hname : Text} {lines : List Text} {n p blanks : ℕ}

/-- Lines with their ends. -/
def linesText (lines : List Text) : Text := lines.flatMap (· ++ crlf)

/-- A line that is not empty; it may continue the one before it. -/
structure IsTextLine (line : Text) : Prop where
  ne_nil : line ≠ []
  cur_ne : cur line ≠ '\r'
  oneLine : '\n' ∉ line

/-- A name of the Content-Length header, which is also found in its short form. -/
def ClenName (hname : Text) : Prop :=
  stricmp hname "Content-Length".toList = true ∨ hname = ['l'] ∨ hname = ['L']

lemma linesText_cons (line : Text) (lines : List Text) :
    linesText (line :: lines) ++ s = line ++ '\r' :: '\n' :: (linesText lines ++ s) := by
  simp [linesText, crlf]

lemma length_linesText (line : Text) (lines : List Text) :
    (linesText (line :: lines)).length = line.length + 2 + (linesText lines).length := by
  rw [linesText, List.flatMap_cons, List.length_append, List.length_append]
  rfl

lemma endOfHdrs_append (h : '\n' ∉ text) :
    endOfHdrs (text ++ s) = (endOfHdrs s).map (· + text.length) := by
  induction text with
  | nil => simp
  | cons c text ih =>
    rw [List.mem_cons, not_or] at h
    rw [List.cons_append, endOfHdrs, if_neg fun hc => h.1 hc.1.symm, ih h.2, Option.map_map]
    rfl

lemma endOfHdrs_line (h : '\n' ∉ line) (hs : cur s ≠ '\r') :
    endOfHdrs (line ++ '\r' :: '\n' :: s) = (endOfHdrs s).map (· + (line.length + 2)) := by
  have htake : s.take 2 ≠ ['\r', '\n'] := by
    intro heq
    cases s with
    | nil => cases heq
    | cons c s =>
      rw [List.take_succ_cons, List.cons.injEq] at heq
      exact hs heq.1
  have hcr : ¬('\r' = '\n' ∧ ('\n' :: s).take 2 = ['\r', '\n']) := fun hc => absurd hc.1 (by decide)
  rw [endOfHdrs_append h, endOfHdrs, if_neg hcr, endOfHdrs, if_neg fun hc => htake hc.2,
    Option.map_map, Option.map_map]
  congr 1
  funext k
  show k + 1 + 1 + line.length = k + (line.length + 2)
  omega

lemma IsTextLine.cur_append (h : IsTextLine line) : cur (line ++ s) ≠ '\r' := by
  obtain ⟨c, v, rfl⟩ := List.exists_cons_of_ne_nil h.ne_nil
  exact h.cur_ne

lemma isTextLine_of_visible (h : Visible line) (hone : '\n' ∉ line) : IsTextLine line := by
  refine ⟨h.ne_nil, ?_, hone⟩
  obtain ⟨c, v, rfl, hc⟩ := h
  rintro rfl
  exact absurd hc (by decide)

/-- The empty line after some lines is found. -/
lemma endOfHdrs_lines (hne : lines ≠ []) (h : ∀ l ∈ lines, IsTextLine l) :
    endOfHdrs (linesText lines ++ '\r' :: '\n' :: s) = some ((linesText lines).length - 1) := by
  induction lines with
  | nil => exact absurd rfl hne
  | cons l ls ih =>
    have hl := h l List.mem_cons_self
    rw [linesText_cons, length_linesText]
    by_cases hnil : ls = []
    · subst hnil
      have hend : endOfHdrs ('\r' :: '\n' :: (linesText [] ++ '\r' :: '\n' :: s)) = some 1 := rfl
      rw [endOfHdrs_append hl.oneLine, hend]
      show some (1 + l.length) = some (l.length + 2 + 0 - 1)
      congr 1
      omega
    · obtain ⟨l', ls', rfl⟩ := List.exists_cons_of_ne_nil hnil
      have hcur : cur (linesText (l' :: ls') ++ '\r' :: '\n' :: s) ≠ '\r' := by
        rw [linesText_cons]
        exact (h l' (by simp)).cur_append
      have hpos : 0 < (linesText (l' :: ls')).length := by
        rw [length_linesText]
        omega
      rw [endOfHdrs_line hl.oneLine hcur, ih hnil fun m hm => h m (List.mem_cons_of_mem _ hm),
        Option.map_some]
      congr 1
      omega

/-- The empty line is found where it is, whatever follows it. -/
lemma endOfHdrs_mono (h : endOfHdrs y = some p) :
    p + 3 ≤ y.length ∧ ∀ t, endOfHdrs (y ++ t) = some p := by
  induction y generalizing p with
  | nil => cases h
  | cons c y ih =>
    rw [endOfHdrs] at h
    split at h
    · next hc =>
      obtain rfl := Option.some.inj h
      have hlen : 2 ≤ y.length := by
        have hlen' := congrArg List.length hc.2
        simp only [List.length_take, List.length_cons, List.length_nil] at hlen'
        omega
      refine ⟨by rw [List.length_cons]; omega, fun t => ?_⟩
      rw [List.cons_append, endOfHdrs,
        if_pos ⟨hc.1, by rw [List.take_append_of_le_length hlen, hc.2]⟩]
    · next hc =>
      obtain ⟨q, hq, rfl⟩ := Option.map_eq_some_iff.1 h
      obtain ⟨hlen, happend⟩ := ih hq
      refine ⟨by rw [List.length_cons]; omega, fun t => ?_⟩
      have htake : ¬(c = '\n' ∧ (y ++ t).take 2 = ['\r', '\n']) := by
        rwa [List.take_append_of_le_length (by omega)]
      rw [List.cons_append, endOfHdrs, if_neg htake, happend t]
      rfl

/-! ### The length of the body -/

lemma findClen_append (h : '\n' ∉ text) (status : Option FindStatus) :
    findClen (text.length + n) (text ++ s) status = findClen n s status := by
  induction text with
  | nil => rw [List.length_nil, Nat.zero_add, List.nil_append]
  | cons c text ih =>
    rw [List.mem_cons, not_or] at h
    have hlen : (c :: text).length + n = text.length + n + 1 := by
      rw [List.length_cons]
      omega
    rw [hlen, List.cons_append, findClen, if_neg fun hc => h.1 hc.symm, ih h.2]

/-- A line that is shorter than the name does not become the name by its end. -/
lemma stricmp_take_append : stricmp ((text ++ '\r' :: s).take 14) "Content-Length".toList =
    stricmp (text.take 14) "Content-Length".toList := by
  by_cases hlen : 14 ≤ text.length
  · rw [List.take_append_of_le_length hlen]
  · have hmem : '\r' ∈ (text ++ '\r' :: s).take 14 := by
      rw [List.take_append, List.mem_append]
      refine Or.inr ?_
      obtain ⟨k, hk⟩ : ∃ k, 14 - text.length = k + 1 := ⟨13 - text.length, by omega⟩
      rw [hk, List.take_succ_cons]
      exact List.mem_cons_self
    have hlong : stricmp ((text ++ '\r' :: s).take 14) "Content-Length".toList = false := by
      rw [stricmp, beq_eq_false_iff_ne]
      intro heq
      have hcr : tolower '\r' ∈ fold "Content-Length".toList := heq ▸ List.mem_map_of_mem hmem
      exact absurd hcr (by decide)
    have hshort : stricmp (text.take 14) "Content-Length".toList = false := by
      rw [stricmp, beq_eq_false_iff_ne]
      intro heq
      have hlen' := congrArg List.length heq
      rw [fold, List.length_map, List.length_take] at hlen'
      have hfold : (fold "Content-Length".toList).length = 14 := rfl
      omega
    rw [hlong, hshort]

/-- What follows the end of a line does not matter for its name. -/
lemma clenName_append (h : text ≠ []) : clenName (text ++ '\r' :: s) = clenName text := by
  obtain ⟨c, v, rfl⟩ := List.exists_cons_of_ne_nil h
  unfold clenName
  rw [stricmp_take_append]
  refine if_congr Iff.rfl rfl ?_
  cases v with
  | nil =>
    have hcr : ¬('\r' = ' ' ∨ '\r' = '\t' ∨ '\r' = ':') := by decide
    have hnul : ¬(nul = ' ' ∨ nul = '\t' ∨ nul = ':') := by decide
    show (if (c = 'l' ∨ c = 'L') ∧ ('\r' = ' ' ∨ '\r' = '\t' ∨ '\r' = ':') then some 1 else none) =
      if (c = 'l' ∨ c = 'L') ∧ (nul = ' ' ∨ nul = '\t' ∨ nul = ':') then some 1 else none
    rw [if_neg fun hc => hcr hc.2, if_neg fun hc => hnul hc.2]
  | cons d v => rfl

/-- The characters of a name. -/
lemma ClenName.visible (h : ClenName hname) : hname ≠ [] ∧ ∀ c ∈ hname, 32 < c.toNat := by
  rcases h with h | rfl | rfl
  · rw [stricmp, beq_iff_eq] at h
    have hlen : hname.length = 14 := length_eq_of_fold h
    refine ⟨List.ne_nil_of_length_pos (by omega), fun c hc => ?_⟩
    have hmem : tolower c ∈ fold "Content-Length".toList := h ▸ List.mem_map_of_mem hc
    have hvisible : ∀ k ∈ fold "Content-Length".toList, 32 < k := by decide
    -- only capital letters are changed
    have hlt := hvisible _ hmem
    rw [tolower] at hlt
    split at hlt <;> omega
  · decide
  · decide

lemma clenName_clenLine (hname_clen : ClenName hname) :
    clenName (clenLine hname blanks n ++ s) = some hname.length := by
  rcases hname_clen with h | rfl | rfl
  · have hlen : hname.length = 14 := by
      rw [stricmp, beq_iff_eq] at h
      exact length_eq_of_fold h
    have htake : (clenLine hname blanks n ++ s).take 14 = hname := by
      rw [clenLine, List.append_assoc, ← hlen, List.take_left]
    rw [clenName, htake, h, hlen]
    rfl
  · rfl
  · rfl

lemma isTextLine_clenLine (hname_clen : ClenName hname) : IsTextLine (clenLine hname blanks n) := by
  obtain ⟨hne, hvisible⟩ := hname_clen.visible
  refine isTextLine_of_visible ((visible_of_forall hne hvisible).append _) fun hmem => ?_
  rcases List.mem_append.1 hmem with hmem | hmem
  · exact absurd (hvisible _ hmem) (by decide)
  rcases List.mem_cons.1 hmem with heq | hmem
  · exact absurd heq (by decide)
  rcases List.mem_append.1 hmem with hmem | hmem
  · exact absurd (List.eq_of_mem_replicate hmem) (by decide)
  · exact notMem_utoa rfl hmem

/-- The length is read from its header. -/
lemma reads_parseClen (hn : (n : ℤ) ≤ maxInt32) (hs : isSpace (cur s) = false) :
    Reads (parseClen hname.length) (clenLine hname blanks n ++ '\r' :: '\n' :: s) (n : ℤ) s := by
  have htext : clenLine hname blanks n ++ '\r' :: '\n' :: s =
      hname ++ ':' :: (List.replicate blanks ' ' ++ (utoa n ++ '\r' :: '\n' :: s)) := by
    simp [clenLine]
  have hget : Reads (scanGetN true hname.length)
      (hname ++ ':' :: (List.replicate blanks ' ' ++ (utoa n ++ '\r' :: '\n' :: s))) hname
      (':' :: (List.replicate blanks ' ' ++ (utoa n ++ '\r' :: '\n' :: s))) :=
    Reads.scanGetN (settled_cons (by decide))
  rw [htext]
  refine hget.bind ((reads_colon (autoskip_blanks (visible_utoa n) blanks)).bind ?_)
  refine (Reads.scanGet (utoa_ne_nil n) (fun c hc => isDigit_of_mem_utoa hc) rfl
    (settled_crlf hs)).bind ?_
  exact (Reads.scanGetNewline s).bind (reads_strtoiValidate hn)

/-- The line after another one is looked at. -/
lemma findClen_line {m : ℕ} (hline : '\n' ∉ line) (hm : line.length + 2 ≤ m) :
    findClen m (line ++ '\r' :: '\n' :: s) none =
      match clenName s with
      | some len =>
        match (parseClen len).run.run s with
        | (.ok clen, _) => .ok clen
        | (.error e, _) => findClen (m - (line.length + 2)) s (some (findStatus e))
      | none => findClen (m - (line.length + 2)) s none := by
  have hcr : '\n' ∉ line ++ ['\r'] := by
    rw [List.mem_append, not_or]
    exact ⟨hline, by decide⟩
  have hlen : m = (line ++ ['\r']).length + (m - (line.length + 2) + 1) := by
    rw [List.length_append, List.length_singleton]
    omega
  have htext : line ++ '\r' :: '\n' :: s = (line ++ ['\r']) ++ '\n' :: s := by simp
  rw [htext, hlen, findClen_append hcr, ← hlen, findClen, if_pos rfl]

/-- The length is found after lines that do not begin like its header. -/
lemma findClen_lines {m : ℕ} (hname_clen : ClenName hname) (hn : (n : ℤ) ≤ maxInt32)
    (hline : '\n' ∉ line) (h : ∀ l ∈ lines, IsTextLine l ∧ clenName l = none)
    (hs : isSpace (cur s) = false) (hm : line.length + 2 + (linesText lines).length ≤ m) :
    findClen m (line ++ '\r' :: '\n' ::
      (linesText lines ++ (clenLine hname blanks n ++ '\r' :: '\n' :: s))) none = .ok (n : ℤ) := by
  induction lines generalizing line m with
  | nil =>
    have hread : (parseClen hname.length).run.run
        (clenLine hname blanks n ++ '\r' :: '\n' :: s) = (.ok (n : ℤ), s) :=
      reads_parseClen hn hs
    have htext : linesText [] ++ (clenLine hname blanks n ++ '\r' :: '\n' :: s) =
        clenLine hname blanks n ++ '\r' :: '\n' :: s := rfl
    rw [findClen_line hline (by omega), htext, clenName_clenLine hname_clen]
    dsimp only
    rw [hread]
  | cons l ls ih =>
    obtain ⟨hl, hl_clen⟩ := h l List.mem_cons_self
    rw [length_linesText] at hm
    have hnone : clenName (l ++ '\r' :: '\n' :: (linesText ls ++
        (clenLine hname blanks n ++ '\r' :: '\n' :: s))) = none := by
      rw [clenName_append hl.ne_nil, hl_clen]
    rw [findClen_line hline (by omega), linesText_cons, hnone]
    exact ih hl.oneLine (fun k hk => h k (List.mem_cons_of_mem _ hk)) (by omega)

end Lines

/-! ### Messages as frames -/

/-- The parts of a message: its first line, the lines of the headers before the Content-Length
header, the name of this header and the blanks in it, the lines after it, and the body. -/
structure Parts where
  first : Text
  pre : List Text
  hname : Text
  blanks : ℕ
  post : List Text
  body : Text

namespace Parts

variable (m : Parts)

/-- The line that announces the body. -/
def clen : Text := clenLine m.hname m.blanks m.body.length

/-- The lines of a message. -/
def lines : List Text := m.first :: (m.pre ++ m.clen :: m.post)

/-- The text of a message. -/
def text : Text := linesText m.lines ++ '\r' :: '\n' :: m.body

/-- The lines are lines, no line before the Content-Length header is taken for it, and none
continues it. -/
structure Framed : Prop where
  first : IsTextLine m.first ∧ Visible m.first
  pre : ∀ l ∈ m.pre, IsTextLine l ∧ clenName l = none
  hname : ClenName m.hname
  post : ∀ l ∈ m.post, IsTextLine l
  next : ∀ l ∈ m.post.head?, Visible l
  body : (m.body.length : ℤ) ≤ maxInt32

variable {m}

lemma Framed.lines (h : m.Framed) : ∀ l ∈ m.lines, IsTextLine l := by
  intro l hl
  rw [Parts.lines, List.mem_cons, List.mem_append, List.mem_cons] at hl
  rcases hl with rfl | hl | rfl | hl
  · exact h.first.1
  · exact (h.pre l hl).1
  · exact isTextLine_clenLine h.hname
  · exact h.post l hl

lemma lines_ne_nil (m : Parts) : m.lines ≠ [] := List.cons_ne_nil _ _

/-- What `pjsip_find_msg` makes of the headers with some of what follows them. -/
lemma Framed.findMsg (h : m.Framed) (b : Text) :
    findMsg (linesText m.lines ++ '\r' :: '\n' :: b) =
      if m.body.length ≤ b.length then .ok ((linesText m.lines).length + 2 + m.body.length)
      else .error .partialMsg := by
  have hpos : 0 < (linesText m.lines).length := by
    rw [Parts.lines, length_linesText]
    omega
  have hend : isSpace (cur (linesText m.post ++ '\r' :: '\n' :: b)) = false := by
    cases hpost : m.post with
    | nil => rfl
    | cons l ls =>
      have hl := h.next l (by rw [hpost, List.head?_cons, Option.mem_some_iff])
      rw [linesText_cons]
      exact (starts_of_visible (hl.append _)).2
  have htext : linesText m.lines ++ '\r' :: '\n' :: b = m.first ++ '\r' :: '\n' ::
      (linesText m.pre ++ (m.clen ++ '\r' :: '\n' ::
        (linesText m.post ++ '\r' :: '\n' :: b))) := by
    simp [Parts.lines, linesText, crlf]
  -- the search finds the length, wherever it stands among the headers
  have hclen : findClen ((linesText m.lines).length - 1 + 1)
      (linesText m.lines ++ '\r' :: '\n' :: b) none = .ok (m.body.length : ℤ) := by
    rw [htext]
    refine findClen_lines h.hname h.body h.first.1.oneLine h.pre hend ?_
    have hlen : (linesText m.lines).length = m.first.length + 2 + ((linesText m.pre).length +
        (linesText (m.clen :: m.post)).length) := by
      rw [Parts.lines, length_linesText, linesText, List.flatMap_append, List.length_append]
      rfl
    omega
  have hsize : (linesText m.lines ++ '\r' :: '\n' :: b).length =
      (linesText m.lines).length + 2 + b.length := by
    simp only [List.length_append, List.length_cons]
    omega
  have hmsg : (linesText m.lines).length - 1 + 3 + ((m.body.length : ℤ)).toNat =
      (linesText m.lines).length + 2 + m.body.length := by omega
  unfold Wire.findMsg
  rw [endOfHdrs_lines m.lines_ne_nil h.lines]
  dsimp only
  rw [hclen]
  dsimp only
  rw [hmsg, hsize]
  by_cases hle : m.body.length ≤ b.length
  · rw [if_pos hle, if_pos (by omega)]
  · rw [if_neg hle, if_neg (by omega)]

/-- Once the headers of a message are complete, only a part of its body can be missing. -/
lemma Framed.exists_body (h : m.Framed) {y t : Text} (hyt : y ++ t = m.text) {p : ℕ}
    (hy : endOfHdrs y = some p) :
    ∃ b, y = linesText m.lines ++ '\r' :: '\n' :: b ∧ m.body = b ++ t := by
  obtain ⟨hp, hmono⟩ := endOfHdrs_mono hy
  have hsame := hmono t
  rw [hyt, Parts.text, endOfHdrs_lines m.lines_ne_nil h.lines, Option.some.injEq] at hsame
  have hsplit : (linesText m.lines ++ ['\r', '\n']) ++ m.body = y ++ t := by
    rw [hyt, Parts.text]
    simp
  rcases complete_or_not hsplit with ⟨b, hb, hbody⟩ | ⟨u, hu, hlines, -⟩
  · exact ⟨b, by rw [hb]; simp, hbody⟩
  · -- the end of the headers stands before the end of the text
    have hlen := congrArg List.length hlines
    have hpos := List.length_pos_iff.2 hu
    simp only [List.length_append, List.length_cons, List.length_nil] at hlen
    omega

/-- A message with its length is a frame. -/
theorem Framed.isFrame (h : m.Framed) : IsFrame msgSize isNewline m.text where
  starts := by
    obtain ⟨c, v, hcv, hc⟩ := h.first.2
    have htext : m.text = c :: (v ++ '\r' :: '\n' :: (linesText (m.pre ++ m.clen :: m.post) ++
        '\r' :: '\n' :: m.body)) := by
      rw [Parts.text, Parts.lines, linesText_cons, hcv]
      rfl
    refine ⟨c, _, htext, ?_⟩
    exact (Bool.or_eq_false_iff.1 (starts_of_visible ⟨c, v, rfl, hc⟩).1).2
  found := fun s => by
    have htext : m.text ++ s = linesText m.lines ++ '\r' :: '\n' :: (m.body ++ s) := by
      simp [Parts.text]
    have hle : m.body.length ≤ (m.body ++ s).length := by
      rw [List.length_append]
      omega
    have hlen : m.text.length = (linesText m.lines).length + 2 + m.body.length := by
      rw [Parts.text, List.length_append, List.length_cons, List.length_cons]
      omega
    rw [htext, msgSize, h.findMsg, if_pos hle, hlen]
    rfl
  notBefore := fun y t hyt ht => by
    rw [msgSize]
    cases hy : endOfHdrs y with
    | none =>
      unfold Wire.findMsg
      rw [hy]
      rfl
    | some p =>
      obtain ⟨b, hb, hbody⟩ := h.exists_body hyt.symm hy
      have hshort : ¬m.body.length ≤ b.length := by
        rw [hbody, List.length_append]
        have hpos := List.length_pos_iff.2 ht
        omega
      rw [hb, h.findMsg, if_neg hshort]
      rfl

end Parts

/-! ### Connections -/

section Connections

variable {others} {src_name : Text} {src_port : ℤ} {pieces : List Text}

/-- The bytes of messages, with line ends before them and after the last one. -/
def bytesOf (sent : List (Text × Parts)) (gap : Text) : Text :=
  sent.flatMap (fun x => x.1 ++ x.2.text) ++ gap

/-- Messages that fit into the buffer, and nothing but line ends between them. -/
structure IsSent (sent : List (Text × Parts)) (gap : Text) : Prop where
  gaps : ∀ x ∈ sent, ∀ c ∈ x.1, isNewline c = true
  framed : ∀ x ∈ sent, x.2.Framed ∧ x.2.text.length ≤ maxPktLen
  gap : ∀ c ∈ gap, isNewline c = true

/-- The messages as the frames of a stream. -/
def itemsOf (sent : List (Text × Parts)) : List (Item Char) := sent.map fun x => ⟨x.1, x.2.text⟩

lemma streamOf_itemsOf (sent : List (Text × Parts)) (gap : Text) :
    streamOf (itemsOf sent) gap = bytesOf sent gap := by
  rw [streamOf, itemsOf, List.flatMap_map, bytesOf]

lemma IsSent.isStream {sent : List (Text × Parts)} {gap : Text} (h : IsSent sent gap) :
    IsStream msgSize isNewline maxPktLen (itemsOf sent) gap where
  gaps := by
    intro i hi
    obtain ⟨x, hx, rfl⟩ := List.mem_map.1 hi
    exact h.gaps x hx
  frames := by
    intro i hi
    obtain ⟨x, hx, rfl⟩ := List.mem_map.1 hi
    exact ⟨(h.framed x hx).1.isFrame, (h.framed x hx).2⟩
  gap := h.gap

lemma frames_connection {sent : List (Text × Parts)} {gap : Text} (h : IsSent sent gap)
    (hpieces : pieces.flatten = bytesOf sent gap) :
    (connection pieces).frames = sent.map fun x => x.2.text := by
  have hframes := frames_receive h.isStream (hpieces.trans (streamOf_itemsOf sent gap).symm)
  rw [itemsOf, List.map_map] at hframes
  exact hframes

/-- However the bytes of a connection are cut into pieces, each message is taken out once, in
order, and treated as if it had come alone; before that there is always room for the next piece. -/
theorem upcalls_of_pieces {sent : List (Text × Parts)} {gap : Text} (h : IsSent sent gap)
    (hpieces : pieces.flatten = bytesOf sent gap) :
    upcalls others src_name src_port (connection pieces) =
        sent.flatMap (fun x => receiveMsg others src_name src_port x.2.text) ∧
      ∀ before after, pieces = before ++ after → (connection before).overflow = false ∧
        (connection before).buf.length < maxPktLen := by
  refine ⟨?_, fun before after hcut => ?_⟩
  · rw [upcalls, frames_connection h hpieces, List.flatMap_map]
  · have hbytes : before.flatten ++ after.flatten = streamOf (itemsOf sent) gap := by
      rw [← List.flatten_append, ← hcut, hpieces, streamOf_itemsOf]
    obtain ⟨hover, hroom⟩ := room_receive h.isStream hbytes
    refine ⟨hover, ?_⟩
    rcases hroom with hnil | hlt
    · have hlen : (connection before).buf.length = 0 := congrArg List.length hnil
      rw [hlen]
      decide
    · exact hlt

/-- A message with a body, a header over two lines, and the length in the short form. -/
def sampleParts : Parts where
  first := "MESSAGE sip:b@h SIP/2.0".toList
  pre := ["Subject: x".toList, " y".toList]
  hname := "l".toList
  blanks := 2
  post := ["Expires: 60".toList]
  body := "hello".toList

lemma framed_sampleParts : sampleParts.Framed where
  first := ⟨⟨by decide, by decide, by decide⟩, ⟨'M', _, rfl, by decide⟩⟩
  pre := fun l hl => by
    rcases List.mem_cons.1 hl with rfl | hl
    · exact ⟨⟨by decide, by decide, by decide⟩, by decide⟩
    · obtain rfl := List.mem_singleton.1 hl
      exact ⟨⟨by decide, by decide, by decide⟩, by decide⟩
  hname := Or.inr (Or.inl rfl)
  post := fun l hl => by
    obtain rfl := List.mem_singleton.1 hl
    exact ⟨by decide, by decide, by decide⟩
  next := fun l hl => by
    obtain rfl := Option.some.inj hl
    exact ⟨'E', _, rfl, by decide⟩
  body := by decide

/-- The message twice, with line ends around it. -/
def sampleStream : List (Text × Parts) := [(crlf, sampleParts), ([], sampleParts)]

lemma isSent_sampleStream : IsSent sampleStream crlf where
  gaps := by decide
  framed := fun x hx => by
    rw [sampleStream, List.mem_cons, List.mem_singleton] at hx
    rcases hx with rfl | rfl
    · exact ⟨framed_sampleParts, by decide⟩
    · exact ⟨framed_sampleParts, by decide⟩
  gap := by decide

theorem upcalls_sampleStream :
    upcalls noOthers "127.0.0.1".toList 5060 (connection [(bytesOf sampleStream crlf).take 90,
        (bytesOf sampleStream crlf).drop 90]) =
        sampleStream.flatMap (fun x => receiveMsg noOthers "127.0.0.1".toList 5060 x.2.text) ∧
      ∀ before after, [(bytesOf sampleStream crlf).take 90, (bytesOf sampleStream crlf).drop 90] =
        before ++ after → (connection before).overflow = false ∧
          (connection before).buf.length < maxPktLen := by
  refine upcalls_of_pieces isSent_sampleStream ?_
  rw [List.flatten_cons, List.flatten_cons, List.flatten_nil, List.append_nil,
    List.take_append_drop]

end Connections

end Sip.Wire
