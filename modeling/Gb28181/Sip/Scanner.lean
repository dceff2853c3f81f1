import Gb28181.Lib.Percent
import Gb28181.Lib.Scan

/-!
# The scanner of the SIP stack

`pj_scanner` on the text that lies ahead of `curptr`, which a terminator follows.  Of the values
of `skip_ws` the parser of messages and URIs uses two: none, and `PJ_SCAN_AUTOSKIP_WS_HEADER`,
with which the scanner skips blanks after each token, and a line end when a blank follows it.
The argument `ws` of the functions says whether it is the second one.
-/

namespace Sip.Wire

open Lib Lib.Scan

/-- The exceptions of the parser. -/
inductive ParseError where
  /-- `PJSIP_SYN_ERR_EXCEPTION`. -/
  | syntaxError
  /-- `PJSIP_EINVAL_ERR_EXCEPTION`. -/
  | einval
  /-- A `tel` URI, which has a parser of its own. -/
  | telUri
  deriving DecidableEq, Repr

/-- What the parser functions are. -/
abbrev Parser := Scanner ParseError

/-! ### Characters -/

/-- `*curptr`; the terminator follows the text. -/
def cur (s : Text) : Char := s.headD nul

/-- `PJ_SCAN_IS_SPACE`. -/
def isSpace (c : Char) : Bool := c == ' ' || c == '\t'

/-- `PJ_SCAN_IS_NEWLINE`. -/
def isNewline (c : Char) : Bool := c == '\r' || c == '\n'

/-- A `pj_cis_t` of the letters, the digits and some other characters. -/
def spec (others : Text) (c : Char) : Bool := c.isAlphanum || others.contains c

/-- `pj_cis_invert`, which leaves out the terminator. -/
def inverted (others : Text) (c : Char) : Bool := c != nul && !others.contains c

/-- `MARK`. -/
def mark : Text := "-_.!~*'()".toList

def tokenSpec : Char → Bool := spec "-.!%*_`'~+".toList

def hostSpec : Char → Bool := spec "_-.".toList

def digitSpec : Char → Bool := Char.isDigit

def paramCharSpec : Char → Bool := spec ("[]/:&+$".toList ++ mark ++ ['%'])

def hdrCharSpec : Char → Bool := spec ("[]/?:+$".toList ++ mark ++ ['%'])

def userSpec : Char → Bool := spec (mark ++ ['%'] ++ "&=+$,;?/".toList)

def userSpecLenient : Char → Bool := spec (mark ++ ['%'] ++ "&=+$,;?/".toList ++ ['#'])

def passwdSpec : Char → Bool := spec (mark ++ ['%'] ++ "&=+$,".toList)

def probeUserHostSpec : Char → Bool := inverted "@ \n>".toList

def displaySpec : Char → Bool := inverted ":\r\n<".toList

def otherUriContent : Char → Bool := spec "#?;:@&=+-_.!~*'()%$,/".toList

/-! ### Blanks and line ends -/

/-- The text after a line end. -/
def skipNewline : Text → Text
  | '\r' :: '\n' :: s => s
  | '\r' :: s => s
  | '\n' :: s => s
  | s => s

/-- `pj_scan_skip_whitespace`. -/
def skipWhitespace (ws : Bool) (s : Text) : Text :=
  let t := s.dropWhile isSpace
  if ws && isNewline (cur t) then
    -- check for header continuation
    if isSpace (cur (skipNewline t)) then (skipNewline t).dropWhile isSpace else t
  else t

/-- What follows each token. -/
def autoskip (ws : Bool) (s : Text) : Text :=
  if ws && decide ((cur s).toNat ≤ 32) then skipWhitespace ws s else s

/-! ### The functions of the scanner -/

/-- `*scanner->curptr`. -/
def curChar : Parser Char := fun s => (.ok (cur s), s)

/-- `pj_scan_is_eof`. -/
def isEof : Parser Bool := fun s => (.ok s.isEmpty, s)

/-- `pj_scan_peek`: the token, and the character after it. -/
def scanPeek (p : Char → Bool) : Parser (Text × Char) := fun s =>
  if s.isEmpty then (.error .syntaxError, s)
  else (.ok (s.takeWhile p, cur (s.dropWhile p)), s)

/-- `pj_scan_get`. -/
def scanGet (ws : Bool) (p : Char → Bool) : Parser Text := fun s =>
  if p (cur s) then (.ok (s.takeWhile p), autoskip ws (s.dropWhile p)) else (.error .syntaxError, s)

/-- `pj_scan_get_char`. -/
def scanGetChar (ws : Bool) : Parser Char := fun s =>
  if cur s = nul then (.error .syntaxError, s) else (.ok (cur s), autoskip ws s.tail)

/-- `pj_scan_get_until_ch`. -/
def scanGetUntilCh (ws : Bool) (until_char : Char) : Parser Text := fun s =>
  if s.isEmpty then (.error .syntaxError, s)
  else (.ok (s.takeWhile (· != until_char)), autoskip ws (s.dropWhile (· != until_char)))

/-- The end of a quoted string with its closing quote, and what follows it.  A quote after an odd
number of backslashes, as `odd` says of those just passed, does not close the string. -/
def closeQuote (quote : Char) : Bool → Text → Option (Text × Text)
  | _, [] => none
  | odd, c :: s =>
    if c = '\n' then none
    else if c = quote && !odd then some ([c], s)
    else (closeQuote quote (c == '\\' && !odd) s).map fun x => (c :: x.1, x.2)

/-- `pj_scan_get_quote` for a quote that opens and closes. -/
def scanGetQuote (ws : Bool) (quote : Char) : Parser Text := fun s =>
  if cur s = quote then
    match closeQuote quote false s.tail with
    | some (text, rest) => (.ok (quote :: text), autoskip ws rest)
    | none => (.error .syntaxError, s)
  else (.error .syntaxError, s)

/-- `pj_scan_get_newline`. -/
def scanGetNewline : Parser Unit := fun s =>
  if isNewline (cur s) then (.ok (), skipNewline s) else (.error .syntaxError, s)

/-- `pj_scan_skip_whitespace` as a step of the parser. -/
def scanSkipWhitespace (ws : Bool) : Parser Unit := fun s => (.ok (), skipWhitespace ws s)

/-! ### What the functions read -/

variable {ws : Bool} {p : Char → Bool} {w s t : Text} {c d : Char}

@[simp] lemma cur_cons : cur (c :: s) = c := rfl

/-- There is nothing to skip at the start of this text. -/
def Settled (ws : Bool) (s : Text) : Prop := autoskip ws s = s

lemma settled_false : Settled false s := rfl

lemma settled_cons (h : 32 < c.toNat) : Settled ws (c :: s) := by
  have hle : decide ((cur (c :: s)).toNat ≤ 32) = false := decide_eq_false (Nat.not_le.2 h)
  rw [Settled, autoskip, hle, Bool.and_false]
  rfl

/-- Nothing that can be seen is skipped. -/
lemma skipWhitespace_cons (h : 32 < c.toNat) : skipWhitespace ws (c :: s) = c :: s := by
  have hspace : isSpace c = false := by
    rw [Bool.eq_false_iff]
    intro hc
    rw [isSpace, Bool.or_eq_true, beq_iff_eq, beq_iff_eq] at hc
    rcases hc with rfl | rfl <;> exact absurd h (by decide)
  have hnewline : isNewline c = false := by
    rw [Bool.eq_false_iff]
    intro hc
    rw [isNewline, Bool.or_eq_true, beq_iff_eq, beq_iff_eq] at hc
    rcases hc with rfl | rfl <;> exact absurd h (by decide)
  have hdrop : (c :: s).dropWhile isSpace = c :: s := List.dropWhile_cons_of_neg (by simp [hspace])
  unfold skipWhitespace
  simp only [hdrop, cur_cons, hnewline, Bool.and_false, Bool.false_eq_true, if_false]

/-- A blank before something that can be seen. -/
lemma autoskip_blank (h : 32 < c.toNat) : autoskip true (' ' :: c :: s) = c :: s := by
  show skipWhitespace true (' ' :: c :: s) = _
  have hdrop : (' ' :: c :: s).dropWhile isSpace = (c :: s).dropWhile isSpace := rfl
  have hcons : skipWhitespace true (c :: s) = c :: s := skipWhitespace_cons h
  unfold skipWhitespace at hcons ⊢
  rw [hdrop]
  exact hcons

/-- A line end that no blank follows. -/
lemma settled_crlf (h : isSpace (cur s) = false) : Settled ws ('\r' :: '\n' :: s) := by
  have hskip : skipWhitespace ws ('\r' :: '\n' :: s) = '\r' :: '\n' :: s := by
    unfold skipWhitespace
    have hdrop : ('\r' :: '\n' :: s).dropWhile isSpace = '\r' :: '\n' :: s := rfl
    have hnext : isSpace (cur (skipNewline ('\r' :: '\n' :: s))) = false := h
    simp only [hdrop, hnext, Bool.false_eq_true, if_false, ite_self]
  rw [Settled, autoskip, hskip, ite_self]

lemma takeWhile_append (hw : ∀ c ∈ w, p c = true) (hs : p (cur s) = false) :
    (w ++ s).takeWhile p = w := by
  have hnil : s.takeWhile p = [] := by
    cases s with
    | nil => rfl
    | cons c s => exact List.takeWhile_cons_of_neg (by simpa using hs)
  rw [List.takeWhile_append_of_pos hw, hnil, List.append_nil]

lemma dropWhile_append (hw : ∀ c ∈ w, p c = true) (hs : p (cur s) = false) :
    (w ++ s).dropWhile p = s := by
  rw [List.dropWhile_append_of_pos hw]
  cases s with
  | nil => rfl
  | cons c s => exact List.dropWhile_cons_of_neg (by simpa using hs)

lemma Reads.curChar (s : Text) : Reads curChar s (cur s) s := rfl

lemma Reads.isEof (s : Text) : Reads isEof s s.isEmpty s := rfl

lemma Reads.scanPeek (hne : w ++ s ≠ []) (hw : ∀ c ∈ w, p c = true) (hs : p (cur s) = false) :
    Reads (scanPeek p) (w ++ s) (w, cur s) (w ++ s) := by
  have hempty : (w ++ s).isEmpty = false := by simpa using hne
  show Wire.scanPeek p (w ++ s) = _
  rw [Wire.scanPeek, hempty, takeWhile_append hw hs, dropWhile_append hw hs]
  rfl

/-- A token and the blanks after it. -/
lemma Reads.scanGet_skip (hne : w ≠ []) (hw : ∀ c ∈ w, p c = true) (hs : p (cur s) = false)
    (hskip : autoskip ws s = t) : Reads (scanGet ws p) (w ++ s) w t := by
  obtain ⟨c, v, rfl⟩ := List.exists_cons_of_ne_nil hne
  have hcur : p (cur (c :: v ++ s)) = true := hw c (by simp)
  show Wire.scanGet ws p (c :: v ++ s) = _
  rw [Wire.scanGet, if_pos hcur, takeWhile_append hw hs, dropWhile_append hw hs, hskip]

lemma Reads.scanGet (hne : w ≠ []) (hw : ∀ c ∈ w, p c = true) (hs : p (cur s) = false)
    (hsettled : Settled ws s) : Reads (scanGet ws p) (w ++ s) w s :=
  Reads.scanGet_skip hne hw hs hsettled

/-- A character and the blanks after it. -/
lemma Reads.scanGetChar_skip (hc : c ≠ nul) (hskip : autoskip ws s = t) :
    Reads (scanGetChar ws) (c :: s) c t := by
  show Wire.scanGetChar ws (c :: s) = _
  rw [Wire.scanGetChar, cur_cons, if_neg hc, List.tail_cons, hskip]

lemma Reads.scanGetChar (hc : c ≠ nul) (hsettled : Settled ws s) :
    Reads (scanGetChar ws) (c :: s) c s := Reads.scanGetChar_skip hc hsettled

lemma Reads.scanGetUntilCh (hw : c ∉ w) (hsettled : Settled ws (c :: s)) :
    Reads (scanGetUntilCh ws c) (w ++ c :: s) w (c :: s) := by
  have hempty : (w ++ c :: s).isEmpty = false := by simp
  have hw' : ∀ d ∈ w, (d != c) = true := fun d hd => by
    rw [bne_iff_ne]
    rintro rfl
    exact hw hd
  have hstop : (cur (c :: s) != c) = false := by simp
  show Wire.scanGetUntilCh ws c (w ++ c :: s) = _
  rw [Wire.scanGetUntilCh, hempty, takeWhile_append hw' hstop, dropWhile_append hw' hstop, hsettled]
  rfl

/-- What follows the closing quote does not matter. -/
lemma closeQuote_append {quote : Char} {odd : Bool} (h : closeQuote quote odd w = some (t, [])) :
    t = w ∧ closeQuote quote odd (w ++ s) = some (w, s) := by
  induction w generalizing odd t with
  | nil => simp [closeQuote] at h
  | cons c w ih =>
    rw [closeQuote] at h
    rw [List.cons_append, closeQuote]
    by_cases hc : c = '\n'
    · simp [hc] at h
    rw [if_neg hc] at h ⊢
    by_cases hq : (decide (c = quote) && !odd) = true
    · rw [if_pos hq, Option.some.injEq, Prod.mk.injEq] at h
      obtain ⟨rfl, rfl⟩ := h
      rw [if_pos hq]
      exact ⟨rfl, rfl⟩
    · rw [if_neg hq] at h ⊢
      obtain ⟨⟨u, v⟩, hu, heq⟩ := Option.map_eq_some_iff.1 h
      obtain ⟨rfl, rfl⟩ := Prod.mk.inj heq
      obtain ⟨rfl, hw⟩ := ih hu
      rw [hw]
      exact ⟨rfl, rfl⟩

/-- A quoted string: it opens with a quote, and the first quote that can close it is its last
character. -/
def Quoted (w : Text) : Prop := ∃ v, w = '"' :: v ∧ closeQuote '"' false v = some (v, [])

lemma Reads.scanGetQuote (hw : Quoted w) (hskip : autoskip ws s = t) :
    Reads (scanGetQuote ws '"') (w ++ s) w t := by
  obtain ⟨v, rfl, hclose⟩ := hw
  show Wire.scanGetQuote ws '"' ('"' :: (v ++ s)) = _
  rw [Wire.scanGetQuote, cur_cons, if_pos rfl, List.tail_cons, (closeQuote_append hclose).2]
  show (Except.ok ('"' :: v), autoskip ws s) = _
  rw [hskip]

lemma Reads.scanGetNewline (s : Text) : Reads scanGetNewline ('\r' :: '\n' :: s) () s := rfl

lemma Reads.scanSkipWhitespace (h : skipWhitespace ws s = t) :
    Reads (scanSkipWhitespace ws) s () t := by
  show Wire.scanSkipWhitespace ws s = _
  rw [Wire.scanSkipWhitespace, h]

end Sip.Wire
