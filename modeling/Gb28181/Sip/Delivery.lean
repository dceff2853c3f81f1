import Gb28181.Sip.Transport

/-!
# Printed messages over a connection

Messages that one stack prints and sends over a TCP connection reach the endpoint of the other one
as they were sent, each once and in order, however the connection cuts their bytes into pieces
(`upcalls_of_printed`).
-/

namespace Sip.Wire

open Lib Lib.Scan Lib.Framing

variable {H : Type} {others : Others H} {src_name : Text} {src_port : ℤ} {line : Line}
  {hdr : List (Hdr H)} {text : Text}

/-! ### Messages that can be sent -/

/-- A message that is read back and stays in one frame: no line end stands in its lines, and no
header is taken for the Content-Length header. -/
structure Sendable (others : Others H) (line : Line) (hdr : List (Hdr H)) : Prop where
  readable : line.Printable
  hdrs : ∀ q ∈ hdr, q.Printable others
  line_end : '\n' ∉ line.print.dropLast
  hdr_lines : ∀ q ∈ hdr, '\n' ∉ q.print others ∧ clenName (q.print others) = none
  length : (printMsg others line hdr).length ≤ maxPktLen

/-- The first line of a message with its end. -/
lemma print_line (h : line.Printable) : ∃ first, line.print = first ++ crlf ∧ Visible first := by
  cases line with
  | request method uri =>
    cases uri with
    | sip url =>
      obtain ⟨⟨hne, htoken⟩, -, -⟩ := h
      have hvisible : Visible method := visible_of_forall hne fun c hc =>
        paramSpec_token.visible c (htoken c hc)
      refine ⟨method ++ ' ' :: (url.print .reqUri ++ " SIP/2.0".toList), ?_, hvisible.append _⟩
      show method ++ ' ' :: (url.print .reqUri ++ " SIP/2.0\r\n".toList) = _
      simp [crlf]
    | other scheme content => exact h.elim
  | status code reason =>
    refine ⟨"SIP/2.0 ".toList ++ (utoa (toULong code) ++ ' ' :: reason), ?_,
      ⟨'S', _, rfl, by decide⟩⟩
    show "SIP/2.0 ".toList ++ (utoa (toULong code) ++ ' ' :: (reason ++ crlf)) = _
    simp

/-- The line of a header. -/
lemma visible_print {q : Hdr H} (h : q.Printable others) : Visible (q.print others) := by
  have htoken := (isHdr_lineOf q h).token
  cases hq : q.print others with
  | nil =>
    rw [hq] at htoken
    exact absurd htoken (by decide)
  | cons c v =>
    rw [hq] at htoken
    exact ⟨c, v, rfl, paramSpec_token.visible c htoken⟩

/-- A message that can be sent is a frame. -/
lemma Sendable.framed (h : Sendable others line hdr) :
    ∃ m : Parts, m.Framed ∧ m.text = printMsg others line hdr := by
  obtain ⟨first, hfirst, hvisible⟩ := print_line h.readable
  have hend : '\n' ∉ first := by
    have hline := h.line_end
    rw [hfirst, crlf, List.dropLast_append_of_ne_nil (by simp)] at hline
    exact fun hmem => hline (List.mem_append_left _ hmem)
  have hzero : ((0 : ℕ) : ℤ) ≤ maxInt32 := by decide
  have hname : ClenName "Content-Length".toList := Or.inl (by decide)
  refine ⟨⟨first, hdr.map (Hdr.print others), "Content-Length".toList, 2, [], []⟩,
    ⟨⟨isTextLine_of_visible hvisible hend, hvisible⟩, ?_, hname, by simp, by simp, hzero⟩, ?_⟩
  · intro l hl
    obtain ⟨q, hq, rfl⟩ := List.mem_map.1 hl
    have hline := isTextLine_of_visible (visible_print (h.hdrs q hq)) (h.hdr_lines q hq).1
    exact ⟨hline, (h.hdr_lines q hq).2⟩
  · have hlines : linesText (hdr.map (Hdr.print others)) = hdr.flatMap (lineOf others) := by
      rw [linesText, List.flatMap_map]
      exact List.flatMap_congr fun q hq => (lineOf_eq (h.hdrs q hq)).symm
    have htext : linesText (first :: (hdr.map (Hdr.print others) ++ [zeroLine])) =
        first ++ crlf ++
          (linesText (hdr.map (Hdr.print others)) ++ "Content-Length:  0\r\n".toList) := by
      rw [linesText, List.flatMap_cons, List.flatMap_append]
      rfl
    show linesText (first :: (hdr.map (Hdr.print others) ++ [zeroLine])) ++ crlf = _
    rw [htext, hlines, printMsg, hfirst]
    simp [crlf]

/-! ### What the endpoint gets -/

/-- The message that the endpoint gets. -/
def deliveredMsg (src_name : Text) (src_port : ℤ) (line : Line) (hdr : List (Hdr H)) : Msg H :=
  match line with
  | .request _ _ =>
    { readMsg line hdr with hdr := markVia src_name src_port (readMsg line hdr).hdr }
  | .status _ _ => readMsg line hdr

/-- A message that the endpoint accepts. -/
structure Acceptable (line : Line) (hdr : List (Hdr H)) : Prop where
  basic : hasBasicHdrs hdr = true
  code : ∀ code reason, line = .status code reason → code < 700

lemma any_received {p : Hdr H → Bool} (hp : ∀ q, p q.received = p q)
    (hzero : p (.contentLength 0) = false) :
    (hdr.map Hdr.received ++ [Hdr.contentLength 0]).any p = hdr.any p := by
  rw [List.any_append, List.any_map, List.any_cons, hzero, List.any_nil, Bool.or_false,
    Bool.or_false]
  congr 1
  funext q
  exact hp q

lemma hasBasicHdrs_received : hasBasicHdrs (readMsg line hdr).hdr = hasBasicHdrs hdr := by
  unfold hasBasicHdrs readMsg
  dsimp only
  rw [any_received (fun q => by cases q <;> rfl) rfl,
    any_received (fun q => by cases q <;> rfl) rfl,
    any_received (fun q => by cases q <;> rfl) rfl,
    any_received (fun q => by cases q <;> rfl) rfl,
    any_received (fun q => by cases q <;> rfl) rfl]

/-- A message that can be sent and is accepted is delivered. -/
lemma receiveMsg_printMsg (h : Sendable others line hdr) (haccept : Acceptable line hdr) :
    receiveMsg others src_name src_port (printMsg others line hdr) =
      [⟨.success, deliveredMsg src_name src_port line hdr⟩] := by
  have hparse : parseMsg others (printMsg others line hdr) = some (some (readMsg line hdr), []) :=
    parseMsg_of_printable h.readable h.hdrs
  have hbasic : hasBasicHdrs (readMsg line hdr).hdr = true := by
    rw [hasBasicHdrs_received, haccept.basic]
  unfold receiveMsg
  rw [hparse]
  dsimp only
  rw [hbasic]
  cases line with
  | request method uri => rfl
  | status code reason =>
    have hcode : ¬(code < 100 ∨ 700 ≤ code) := by
      have hlt := haccept.code code reason rfl
      have hmin := h.readable.1.1
      omega
    show (if code < 100 ∨ 700 ≤ code then _ else _) = _
    rw [if_neg hcode]
    rfl

/-- The frames of a connection with printed messages. -/
lemma isStream_printed {sent : List (Line × List (Hdr H))}
    (h : ∀ x ∈ sent, Sendable others x.1 x.2) :
    IsStream msgSize isNewline maxPktLen (sent.map fun x => ⟨[], printMsg others x.1 x.2⟩) [] where
  gaps := by
    intro i hi
    obtain ⟨x, -, rfl⟩ := List.mem_map.1 hi
    simp
  frames := by
    intro i hi
    obtain ⟨x, hx, rfl⟩ := List.mem_map.1 hi
    obtain ⟨m, hm, htext⟩ := (h x hx).framed
    exact ⟨htext ▸ hm.isFrame, (h x hx).length⟩
  gap := by simp

/-- The messages that are printed one after the other reach the endpoint, each once and in order,
however the connection cuts their bytes into pieces. -/
theorem upcalls_of_printed {sent : List (Line × List (Hdr H))} {pieces : List Text}
    (h : ∀ x ∈ sent, Sendable others x.1 x.2 ∧ Acceptable x.1 x.2)
    (hpieces : pieces.flatten = sent.flatMap fun x => printMsg others x.1 x.2) :
    upcalls others src_name src_port (connection pieces) =
      sent.map fun x => ⟨.success, deliveredMsg src_name src_port x.1 x.2⟩ := by
  have hstream := isStream_printed fun x hx => (h x hx).1
  have hbytes : streamOf (sent.map fun x => (⟨[], printMsg others x.1 x.2⟩ : Item Char)) [] =
      sent.flatMap fun x => printMsg others x.1 x.2 := by
    rw [streamOf, List.flatMap_map, List.append_nil]
    rfl
  have hframes : (connection pieces).frames = sent.map fun x => printMsg others x.1 x.2 := by
    have hreceive := frames_receive hstream (hpieces.trans hbytes.symm)
    rw [List.map_map] at hreceive
    exact hreceive
  rw [upcalls, hframes, List.flatMap_map, List.map_eq_flatMap]
  exact List.flatMap_congr fun x hx => receiveMsg_printMsg (h x hx).1 (h x hx).2

/-! ### A REGISTER and its answer -/

lemma sampleHdrs_lines : ∀ q ∈ sampleHdrs, '\n' ∉ q.print noOthers ∧
    clenName (q.print noOthers) = none := by
  decide

set_option maxRecDepth 4000 in
lemma length_sampleHdrs : (sampleHdrs.flatMap (lineOf noOthers) ++
    "Content-Length:  0\r\n\r\n".toList).length ≤ 1000 := by
  decide

lemma sendable_sample (h : line.Printable) (hend : '\n' ∉ line.print.dropLast)
    (hlen : line.print.length ≤ 1000) : Sendable noOthers line sampleHdrs where
  readable := h
  hdrs := printable_sampleHdrs
  line_end := hend
  hdr_lines := sampleHdrs_lines
  length := by
    have hhdrs := length_sampleHdrs
    rw [printMsg, List.length_append, maxPktLen]
    omega

/-- A request and a response. -/
def sampleSent : List (Line × List (Hdr Empty)) :=
  [(sampleLine, sampleHdrs), (.status 200 "OK".toList, sampleHdrs)]

/-- Their bytes. -/
def sampleBytes : Text := sampleSent.flatMap fun x => printMsg noOthers x.1 x.2

theorem upcalls_sampleSent : upcalls noOthers "127.0.0.1".toList 5060
    (connection [sampleBytes.take 500, sampleBytes.drop 500]) =
      sampleSent.map fun x => ⟨.success, deliveredMsg "127.0.0.1".toList 5060 x.1 x.2⟩ := by
  have hstatus : (Line.status 200 "OK".toList).Printable :=
    ⟨by decide, Or.inr ⟨'O', _, rfl, by decide⟩, by decide⟩
  have hbasic : hasBasicHdrs sampleHdrs = true := by decide
  refine upcalls_of_printed ?_ ?_
  · intro x hx
    simp only [sampleSent, List.mem_cons, List.not_mem_nil, or_false] at hx
    rcases hx with rfl | rfl
    · exact ⟨sendable_sample printable_sampleLine (by decide) (by decide), hbasic,
        fun code reason h => by cases h⟩
    · refine ⟨sendable_sample hstatus (by decide) (by decide), hbasic, fun code reason h => ?_⟩
      obtain ⟨rfl, -⟩ := Line.status.inj h
      decide
  · show sampleBytes.take 500 ++ (sampleBytes.drop 500 ++ []) = sampleBytes
    rw [List.append_nil, List.take_append_drop]

/-! ### What the endpoint does not get -/

end Sip.Wire
