import Gb28181.Sip.MsgPrinter
import Gb28181.Sip.ParamRoundTrip

/-!
# Headers that cannot be parsed

What the parser makes of a message whose headers are read or fail one by one.  A header that fails
does not change what is read of the others, but it is reported, and it costs the whole message when
it is the last one (`parseMsg_lines`).
-/

namespace Sip.Wire

open Lib Lib.Scan

variable {H : Type} {others : Others H} {text s t : Text} {hdrs new : List (Hdr H)}
  {err : ErrReport} {errs : List ErrReport} {line : Line}

/-! ### One header -/

/-- The text, with its line end, is read as headers, whatever follows that does not continue it. -/
def IsHdr (others : Others H) (text : Text) (hdrs : List (Hdr H)) : Prop :=
  ∀ s, isSpace (cur s) = false → Reads (parseHdr others) (text ++ s) hdrs s

/-- The text begins with neither a blank nor a line end. -/
def Starts (text : Text) : Prop := endsHdrs text = false ∧ isSpace (cur text) = false

/-- The text, with its line end, cannot be read as a header, and the parser fails within it, so that
what is passed over ends with it. -/
structure IsBad (others : Others H) (text : Text) (err : ErrReport) : Prop where
  starts : Starts text
  hname : ∀ s, reportedName (text ++ s) = err.hname
  fails : ∀ s, isSpace (cur s) = false → ∃ t, t ≠ [] ∧
    Fails (parseHdr others) (text ++ s) err.except_code t ∧ skipLines t.length t = s

/-- What is read of a header, or the error that is reported for it. -/
def IsLine (others : Others H) (text : Text) : Except ErrReport (List (Hdr H)) → Prop
  | .ok hdrs => IsHdr others text hdrs
  | .error err => IsBad others text err

lemma Starts.append (h : Starts text) (s : Text) : Starts (text ++ s) := by
  obtain ⟨hends, hspace⟩ := h
  cases text with
  | nil => exact absurd hends (by decide)
  | cons c text => exact ⟨hends, hspace⟩

lemma starts_cons {c : Char} (hc : 32 < c.toNat) (v : Text) : Starts (c :: v) := by
  have hne : ∀ d : Char, d.toNat ≤ 32 → c ≠ d := by
    rintro d hd rfl
    exact absurd hc (Nat.not_lt.2 hd)
  refine ⟨?_, ?_⟩
  · simp [endsHdrs, isNewline, hne '\r' (by decide), hne '\n' (by decide)]
  · simp [isSpace, hne ' ' (by decide), hne '\t' (by decide)]

lemma starts_of_token (h : tokenSpec (cur text) = true) : Starts text := by
  cases text with
  | nil => exact absurd h (by decide)
  | cons c text => exact starts_cons (paramSpec_token.visible c h) text

/-- A header begins with its name. -/
lemma IsHdr.token (h : IsHdr others text hdrs) : tokenSpec (cur text) = true := by
  have hread := h [] rfl
  rw [List.append_nil] at hread
  obtain ⟨hname, t, hget, -⟩ := reads_bind_iff.1 hread
  by_contra hcur
  have hrun : scanGet true tokenSpec text = (.ok hname, t) := hget
  rw [scanGet, if_neg hcur] at hrun
  cases hrun

lemma IsHdr.starts (h : IsHdr others text hdrs) : Starts text := starts_of_token h.token

lemma starts_of_isLine {r : Except ErrReport (List (Hdr H))} (h : IsLine others text r) :
    Starts text := by
  cases r with
  | ok hdrs => exact IsHdr.starts h
  | error err => exact IsBad.starts h

/-! ### All headers -/

/-- A header with its line end, and what is read of it. -/
structure HdrLine (H : Type) where
  text : Text
  result : Except ErrReport (List (Hdr H))

/-- The text of the headers. -/
def textOf (lines : List (HdrLine H)) : Text := lines.flatMap HdrLine.text

/-- The headers that are read. -/
def hdrsOf (lines : List (HdrLine H)) : List (Hdr H) :=
  lines.flatMap fun l => match l.result with
    | .ok hdrs => hdrs
    | .error _ => []

/-- The errors that are reported. -/
def errsOf (lines : List (HdrLine H)) : List ErrReport :=
  lines.flatMap fun l => match l.result with
    | .ok _ => []
    | .error err => [err]

/-- Whether the last header is read. -/
def lastRead (lines : List (HdrLine H)) : Bool :=
  match lines.getLast? with
  | some ⟨_, .ok _⟩ => true
  | _ => false

variable {lines : List (HdrLine H)}

lemma hdrsOf_ok : hdrsOf (⟨text, .ok new⟩ :: lines) = new ++ hdrsOf lines := rfl

lemma hdrsOf_error : hdrsOf (⟨text, .error err⟩ :: lines) = hdrsOf lines := rfl

lemma errsOf_ok : errsOf (⟨text, .ok new⟩ :: lines) = errsOf lines := rfl

lemma errsOf_error : errsOf (⟨text, .error err⟩ :: lines) = err :: errsOf lines := rfl

lemma textOf_cons (l : HdrLine H) : textOf (l :: lines) ++ s = l.text ++ (textOf lines ++ s) :=
  List.append_assoc _ _ _

/-- There is a header after another one. -/
lemma starts_text (hne : lines ≠ []) (h : ∀ l ∈ lines, IsLine others l.text l.result) :
    Starts (textOf lines ++ s) := by
  obtain ⟨l, ls, rfl⟩ := List.exists_cons_of_ne_nil hne
  have hl := starts_of_isLine (h l List.mem_cons_self)
  rw [textOf, List.flatMap_cons, List.append_assoc]
  exact hl.append _

/-- What follows a header, another one or the end, does not fold it. -/
lemma isSpace_text (h : ∀ l ∈ lines, IsLine others l.text l.result)
    (hspace : isSpace (cur s) = false) : isSpace (cur (textOf lines ++ s)) = false := by
  by_cases hnil : lines = []
  · subst hnil
    exact hspace
  · exact (starts_text hnil h).2

lemma lastRead_cons {l : HdrLine H} (hne : lines ≠ []) :
    lastRead (l :: lines) = lastRead lines := by
  rw [lastRead, lastRead, List.getLast?_cons_of_ne_nil hne]

/-- There are at least as many characters as headers. -/
lemma length_le_textOf (h : ∀ l ∈ lines, IsLine others l.text l.result) :
    lines.length ≤ (textOf lines).length := by
  induction lines with
  | nil => exact Nat.le_refl _
  | cons l ls ih =>
    have hl := starts_of_isLine (h l List.mem_cons_self)
    have hle := ih fun l' hl' => h l' (List.mem_cons_of_mem _ hl')
    have hpos : 0 < l.text.length := by
      rw [List.length_pos_iff]
      intro hnil
      rw [hnil] at hl
      exact absurd hl.1 (by decide)
    rw [textOf, List.flatMap_cons, List.length_append, List.length_cons]
    rw [textOf] at hle
    omega

/-- The loop over the headers: all of them are tried, in order. -/
lemma parseHdrs_lines {n : ℕ} (hne : lines ≠ []) (h : ∀ l ∈ lines, IsLine others l.text l.result)
    (hends : endsHdrs s = true) (hspace : isSpace (cur s) = false) (hn : lines.length ≤ n) :
    parseHdrs others n hdrs errs (textOf lines ++ s) = some
      (if lastRead lines then some (hdrs ++ hdrsOf lines, s) else none, errs ++ errsOf lines) := by
  induction lines generalizing n hdrs errs with
  | nil => exact absurd rfl hne
  | cons l ls ih =>
    obtain ⟨m, rfl⟩ : ∃ m, n = m + 1 := ⟨n - 1, by simp at hn; omega⟩
    have hm : ls.length ≤ m := Nat.le_of_succ_le_succ hn
    have hls : ∀ l' ∈ ls, IsLine others l'.text l'.result := fun l' hl' =>
      h l' (List.mem_cons_of_mem _ hl')
    have hrest : isSpace (cur (textOf ls ++ s)) = false := isSpace_text hls hspace
    have hmore : ls ≠ [] → endsHdrs (textOf ls ++ s) = false := fun hnil =>
      (starts_text hnil hls).1
    have hl := h l List.mem_cons_self
    obtain ⟨text, r⟩ := l
    rw [textOf_cons, parseHdrs]
    cases r with
    | ok new =>
      have hrun : (parseHdr others).run.run (text ++ (textOf ls ++ s)) =
          (.ok new, textOf ls ++ s) := hl _ hrest
      rw [hrun, hdrsOf_ok, errsOf_ok]
      by_cases hnil : ls = []
      · subst hnil
        have hs : endsHdrs (textOf ([] : List (HdrLine H)) ++ s) = true := hends
        simp only [hs, if_true]
        simp [lastRead, hdrsOf, errsOf, textOf]
      · simp only [hmore hnil, Bool.false_eq_true, if_false]
        rw [ih hnil hls hm, lastRead_cons hnil, List.append_assoc]
    | error err =>
      -- the error is reported, and the rest of the line is passed over
      have hbad : IsBad others text err := hl
      obtain ⟨t, ht, hfails, hskip⟩ := hbad.fails _ hrest
      have hrun : (parseHdr others).run.run (text ++ (textOf ls ++ s)) =
          (.error err.except_code, t) := hfails
      have hempty : ¬t.isEmpty = true := by simpa using ht
      rw [hrun, hdrsOf_error, errsOf_error]
      simp only [hempty, Bool.false_eq_true, if_false, hskip, hbad.hname]
      by_cases hnil : ls = []
      · subst hnil
        have hs : endsHdrs (textOf ([] : List (HdrLine H)) ++ s) = true := hends
        simp only [hs, if_true]
        simp [lastRead, errsOf]
      · simp only [hmore hnil, Bool.false_eq_true, if_false]
        rw [ih hnil hls hm, lastRead_cons hnil, List.append_assoc]
        rfl

/-! ### The message -/

/-- The text, with its line end, is read as the first line of a message. -/
structure IsFirst (text : Text) (line : Line) : Prop where
  starts : Starts text
  reads : ∀ s, isSpace (cur s) = false → Reads parseLine (text ++ s) line s

lemma dropWhile_of_cur {p : Char → Bool} (hp : p (cur s) = false) : s.dropWhile p = s := by
  cases s with
  | nil => rfl
  | cons c s => exact List.dropWhile_cons_of_neg (by simpa using hp)

/-- Nothing is skipped before a message. -/
lemma skipNewlines_of_starts (h : Starts s) : skipNewlines (skipWhitespace true s) = s := by
  have hnewline : isNewline (cur s) = false := (Bool.or_eq_false_iff.1 h.1).2
  have hskip : skipWhitespace true s = s := by
    unfold skipWhitespace
    simp only [dropWhile_of_cur h.2, hnewline, Bool.and_false, Bool.false_eq_true, if_false]
  rw [hskip, skipNewlines, dropWhile_of_cur hnewline]

/-- The message has the headers that are read, in order, if the last one is read; every other header
is reported. -/
theorem parseMsg_lines (body : Text) (hline : IsFirst text line) (hne : lines ≠ [])
    (h : ∀ l ∈ lines, IsLine others l.text l.result) :
    parseMsg others (text ++ (textOf lines ++ (crlf ++ body))) = some
      (if lastRead lines then
        some ⟨line, hdrsOf lines,
          if hasContentType (hdrsOf lines) && !body.isEmpty then some body else none⟩
        else none, errsOf lines) := by
  have hstarts : Starts (text ++ (textOf lines ++ (crlf ++ body))) := hline.starts.append _
  have hempty : ¬(text ++ (textOf lines ++ (crlf ++ body))).isEmpty = true := by
    rw [Bool.not_eq_true]
    exact (Bool.or_eq_false_iff.1 hstarts.1).1
  have hrun : parseLine.run.run (text ++ (textOf lines ++ (crlf ++ body))) =
      (.ok line, textOf lines ++ (crlf ++ body)) := hline.reads _ (starts_text hne h).2
  have hlen : lines.length ≤ (textOf lines ++ (crlf ++ body)).length + 1 := by
    have hle := length_le_textOf h
    rw [List.length_append]
    omega
  unfold parseMsg
  simp only [skipNewlines_of_starts hstarts, hempty, Bool.false_eq_true, if_false, hrun]
  rw [parseHdrs_lines hne h rfl rfl hlen]
  cases lastRead lines with
  | false => rfl
  | true => rfl

end Sip.Wire
