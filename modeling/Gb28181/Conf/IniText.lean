import Gb28181.Conf.Readers

/-!
# Configuration files as lists of lines

A configuration file that is written as such files are: headers, settings and empty lines,
with blanks around `=` and at the end of a setting, and with either line ending.
`lookup_render` says which setting `parse_file` finds in it: in a section whose name the
header abbreviates, the first one whose key abbreviates the requested key.
-/

namespace Conf

open Lib

/-! ### Lines and their text -/

/-- A line of a configuration file. -/
inductive IniLine where
  | empty
  | header (name : Text)
  | setting (key value : Text)
  deriving DecidableEq, Repr

/-- A character that ends nothing: no white space and not the terminator of a string. -/
def plain (c : Char) : Bool := !isspace c && c != nul

/-- The lines that read back: the names contain no character with a meaning of its own. -/
def IniLine.WellFormed : IniLine → Prop
  | .empty => True
  | .header name => ∀ c ∈ name, plain c = true ∧ c ≠ ']'
  | .setting key value =>
    key ≠ [] ∧ value ≠ [] ∧ (∀ c ∈ key, plain c = true ∧ c ≠ '=' ∧ c ≠ '[' ∧ c ≠ '#') ∧
      ∀ c ∈ value, plain c = true

/-- How a line ends; only the last line of a file can end with the file. -/
inductive LineEnd where
  | lf
  | crlf
  | eof
  deriving DecidableEq, Repr

def LineEnd.text : LineEnd → Text
  | .lf => ['\n']
  | .crlf => ['\r', '\n']
  | .eof => []

/-- Some blanks. -/
abbrev Blanks := { s : Text // ∀ c ∈ s, blank c = true }

/-- A line as it is written: the blanks before `=`, after it and after the value. -/
structure Written where
  line : IniLine
  before : Blanks
  after : Blanks
  trailing : Blanks
  lineEnd : LineEnd

def Written.text (w : Written) : Text :=
  match w.line with
  | .empty => []
  | .header name => '[' :: (name ++ [']'])
  | .setting key value =>
    key ++ (w.before : Text) ++ '=' :: ((w.after : Text) ++ (value ++ (w.trailing : Text)))

/-- The text of a file. -/
def render (ws : List Written) : Text := ws.flatMap fun w => w.text ++ w.lineEnd.text

/-- A file of well-formed lines, of which only the last one can end with the file. -/
structure WellWritten (ws : List Written) : Prop where
  lines : ∀ w ∈ ws, w.line.WellFormed
  ended : ws.Pairwise fun w _ => w.lineEnd ≠ .eof

/-- The value that the scan for a key finds in some lines; `inSec` says whether the last
header before them abbreviates the section. -/
def findValue (sec key : Text) : Bool → List IniLine → Option Text
  | _, [] => none
  | inSec, .empty :: ls => findValue sec key inSec ls
  | _, .header name :: ls => findValue sec key (decide (fold name <+: fold sec)) ls
  | inSec, .setting k v :: ls =>
    if inSec = true ∧ fold k <+: fold key then some v else findValue sec key inSec ls

/-! ### Characters -/

lemma plain_iff {c : Char} :
    plain c = true ↔ isspace c = false ∧ c ≠ nul := by
  simp [plain]

lemma isspace_of_newline {c : Char} (h : newline c = true) : isspace c = true := by
  simp only [newline, Bool.or_eq_true, beq_iff_eq] at h
  rcases h with rfl | rfl <;> decide

lemma isspace_of_blank {c : Char} (h : blank c = true) : isspace c = true := by
  simp only [blank, Bool.or_eq_true, beq_iff_eq] at h
  rcases h with rfl | rfl <;> decide

/-- A character that does not end a line. -/
abbrev Inside (c : Char) : Prop := (newline c || endOfString c) = false

lemma inside_of_plain {c : Char} (h : plain c = true) : Inside c := by
  obtain ⟨hspace, hnul⟩ := plain_iff.1 h
  have hnl : newline c = false := by
    by_contra hc
    simp [isspace_of_newline (by simpa using hc)] at hspace
  simp [Inside, hnl, endOfString, hnul]

lemma inside_of_blank {c : Char} (h : blank c = true) : Inside c := by
  simp only [blank, Bool.or_eq_true, beq_iff_eq] at h
  rcases h with rfl | rfl <;> decide

lemma not_blank_of_plain {c : Char} (h : plain c = true) : blank c = false := by
  by_contra hc
  have := (plain_iff.1 h).1
  simp [isspace_of_blank (by simpa using hc)] at this

lemma Written.inside_text (w : Written) (h : w.line.WellFormed) : ∀ c ∈ w.text, Inside c := by
  intro c hc
  rw [text] at hc
  split at hc
  · simp at hc
  · next name heq =>
    rw [heq] at h
    simp only [List.mem_cons, List.mem_append, List.not_mem_nil, or_false] at hc
    rcases hc with rfl | hc | rfl
    · decide
    · exact inside_of_plain (h c hc).1
    · decide
  · next key value heq =>
    rw [heq] at h
    obtain ⟨-, -, hkey, hvalue⟩ := h
    simp only [List.mem_append, List.mem_cons] at hc
    rcases hc with (hc | hc) | rfl | hc | hc | hc
    · exact inside_of_plain (hkey c hc).1
    · exact inside_of_blank (w.before.2 c hc)
    · decide
    · exact inside_of_blank (w.after.2 c hc)
    · exact inside_of_plain (hvalue c hc)
    · exact inside_of_blank (w.trailing.2 c hc)

/-- The text of a setting starts with its key. -/
lemma Written.text_setting (w : Written) {key value : Text} (hw : w.line = .setting key value)
    (h : w.line.WellFormed) : ∃ c, w.text.head? = some c ∧ plain c = true ∧ c ≠ '[' := by
  rw [hw] at h
  obtain ⟨hkne, -, hkey, -⟩ := h
  obtain ⟨a, k, rfl⟩ := List.exists_cons_of_ne_nil hkne
  obtain ⟨hplain, -, hne, -⟩ := hkey a (by simp)
  exact ⟨a, by simp [text, hw], hplain, hne⟩

lemma trimKey_append_blanks {k b : Text} (hk : k ≠ []) (hlast : ∀ c ∈ k.getLast?, blank c = false)
    (hb : ∀ c ∈ b, blank c = true) : trimKey (k ++ b) = k := by
  induction b using List.reverseRecOn with
  | nil =>
    obtain ⟨a, t, rfl⟩ := List.exists_cons_of_ne_nil hk
    have ht : t.rdropWhile blank = t := by
      refine List.rdropWhile_eq_self_iff.2 fun hne => ?_
      have hmem : t.getLast hne ∈ (a :: t).getLast? := by
        rw [List.getLast?_cons_of_ne_nil hne]
        exact List.getLast_mem_getLast? hne
      simp [hlast _ hmem]
    simp [trimKey, ht]
  | append_singleton b c ih =>
    rw [← List.append_assoc, trimKey_append_singleton (by simp [hk]), if_pos (hb c (by simp))]
    exact ih fun d hd => hb d (by simp [hd])

/-- What a line sets that starts with a key and `=`. -/
lemma settingOf_append {k v : Text} (hk : k ≠ []) (heq : '=' ∉ k) (hhash : k.head? ≠ some '#') :
    settingOf (k ++ '=' :: v) = some ⟨trimKey k, v.dropWhile blank⟩ := by
  obtain ⟨a, t, rfl⟩ := List.exists_cons_of_ne_nil hk
  have hne : ∀ c ∈ a :: t, (c != '=') = true := by
    intro c hc
    rw [bne_iff_ne]
    rintro rfl
    exact heq hc
  have htake : (a :: t ++ '=' :: v).takeWhile (· != '=') = a :: t := by
    rw [List.takeWhile_append_of_pos hne, List.takeWhile_cons_of_neg (by simp), List.append_nil]
  have hdrop : (a :: t ++ '=' :: v).dropWhile (· != '=') = '=' :: v := by
    rw [List.dropWhile_append_of_pos hne, List.dropWhile_cons_of_neg (by simp)]
  rw [settingOf, if_neg (by simpa using hhash), htake, hdrop]

/-- A setting reads back as it was written, up to the blanks after the value. -/
lemma Written.settingOf_text (w : Written) {key value : Text} (hw : w.line = .setting key value)
    (h : w.line.WellFormed) :
    settingOf w.text = some ⟨key, value ++ (w.trailing : Text)⟩ := by
  rw [hw] at h
  obtain ⟨hkne, hvne, hkey, hvalue⟩ := h
  obtain ⟨a, k, rfl⟩ := List.exists_cons_of_ne_nil hkne
  obtain ⟨b, v, rfl⟩ := List.exists_cons_of_ne_nil hvne
  have heq : '=' ∉ a :: k ++ (w.before : Text) := by
    intro hmem
    rcases List.mem_append.1 hmem with hc | hc
    · exact (hkey '=' hc).2.1 rfl
    · exact absurd (w.before.2 '=' hc) (by decide)
  have htext : w.text = ((a :: k) ++ (w.before : Text)) ++
      '=' :: ((w.after : Text) ++ (b :: v ++ (w.trailing : Text))) := by
    rw [text, hw]
  have hafter : ((w.after : Text) ++ (b :: v ++ (w.trailing : Text))).dropWhile blank =
      b :: v ++ (w.trailing : Text) := by
    rw [List.dropWhile_append_of_pos w.after.2, List.cons_append,
      List.dropWhile_cons_of_neg (by simp [not_blank_of_plain (hvalue b (by simp))])]
  have htrim := trimKey_append_blanks (List.cons_ne_nil a k)
    (fun c hc => not_blank_of_plain (hkey c (List.mem_of_getLast? hc)).1) w.before.2
  rw [htext, settingOf_append (by simp) heq (by simpa using (hkey a (by simp)).2.2.2), htrim,
    hafter]

/-! ### The scan outside the section -/

section Scan

variable {sec key buf : Text} {i : ℕ}

/-- The scan is at the start of a line: not the first one, so that it can stand there also
inside a section. -/
def AfterNewline (buf : Text) (i : ℕ) : Prop :=
  ∃ j c, i = j + 1 ∧ read buf j = .ok c ∧ newline c = true

lemma AfterNewline.atLineStart (h : AfterNewline buf i) : atLineStart buf i = .ok true := by
  obtain ⟨j, c, rfl, hread, hc⟩ := h
  simp [Conf.atLineStart, hread, hc]

lemma afterNewline_of_drop {xs s : Text} {c : Char} (h : buf.drop i = xs ++ c :: s)
    (hc : newline c = true) : AfterNewline buf (i + xs.length + 1) :=
  ⟨_, c, rfl, read_add_length h, hc⟩

lemma drop_add {xs s : Text} (h : buf.drop i = xs ++ s) : buf.drop (i + xs.length) = s := by
  rw [← List.drop_drop, h, List.drop_left]

lemma drop_succ {c : Char} {s : Text} (h : buf.drop i = c :: s) : buf.drop (i + 1) = s := by
  rw [← List.drop_drop, h, List.drop_one, List.tail_cons]

lemma atLineStart_succ {c : Char} (hc : read buf i = .ok c) :
    atLineStart buf (i + 1) = .ok (newline c) := by
  simp [atLineStart, hc]

/-- A character that starts no header is passed. -/
lemma goes_outer {c : Char} {b : Bool} (hc : read buf i = .ok c) (hnul : c ≠ nul)
    (hb : atLineStart buf i = .ok b) (hno : b = false ∨ c ≠ '[') :
    Loop.Reaches (parseStep sec key buf) (.outer i) (.outer (i + 1)) := by
  have hend : endOfString c = false := by simpa [endOfString] using hnul
  have hleft : (b && leftBarce c) = false := by
    rcases hno with rfl | hno
    · rfl
    · simp [leftBarce, hno]
  refine .single (parseStep_of_goto ?_)
  simp only [advance, hc, ok_bind, hend, hb, hleft, Bool.false_eq_true, if_false, pure_eq_ok]

variable (sec key) in
/-- The rest of a line is passed, whatever it contains. -/
lemma reaches_outer_inside {xs s : Text} (hdrop : buf.drop i = xs ++ s)
    (hxs : ∀ c ∈ xs, Inside c) (hi : atLineStart buf i = .ok false) :
    Loop.Reaches (parseStep sec key buf) (.outer i) (.outer (i + xs.length)) ∧
      atLineStart buf (i + xs.length) = .ok false := by
  induction xs generalizing i with
  | nil => exact ⟨.refl _, hi⟩
  | cons c xs ih =>
    have hc : Inside c := hxs c (by simp)
    simp only [Inside, endOfString, Bool.or_eq_false_iff, beq_eq_false_iff_ne] at hc
    have hread := read_of_drop hdrop
    obtain ⟨hreach, hstart⟩ := ih (drop_succ hdrop) (fun d hd => hxs d (by simp [hd]))
      (by rw [atLineStart_succ hread, hc.1])
    have hlen : i + (c :: xs).length = i + 1 + xs.length := by simp; omega
    rw [hlen]
    exact ⟨(goes_outer hread hc.2 hi (Or.inl rfl)).trans hreach, hstart⟩

/-- The end of a line is passed. -/
lemma reaches_outer_lineEnd {e : LineEnd} {s : Text} {b : Bool} (hdrop : buf.drop i = e.text ++ s)
    (hi : atLineStart buf i = .ok b) :
    Loop.Reaches (parseStep sec key buf) (.outer i) (.outer (i + e.text.length)) := by
  cases e with
  | lf => exact goes_outer (read_of_drop hdrop) (by decide) hi (Or.inr (by decide))
  | crlf =>
    have hdrop' : buf.drop (i + 1) = '\n' :: s := drop_succ hdrop
    exact (goes_outer (read_of_drop hdrop) (by decide) hi (Or.inr (by decide))).trans
      (goes_outer (read_of_drop hdrop') (by decide) (atLineStart_succ (read_of_drop hdrop))
        (Or.inr (by decide)))
  | eof => exact .refl _

/-- A whole line is passed, if it does not start with `[`. -/
lemma reaches_outer_line {xs s : Text} {e : LineEnd} {b : Bool}
    (hdrop : buf.drop i = xs ++ (e.text ++ s)) (hxs : ∀ c ∈ xs, Inside c)
    (hhead : xs.head? ≠ some '[') (hi : atLineStart buf i = .ok b) :
    Loop.Reaches (parseStep sec key buf) (.outer i) (.outer (i + xs.length + e.text.length)) := by
  cases xs with
  | nil => exact reaches_outer_lineEnd hdrop hi
  | cons c xs =>
    have hc : Inside c := hxs c (by simp)
    simp only [Inside, endOfString, Bool.or_eq_false_iff, beq_eq_false_iff_ne] at hc
    have hread := read_of_drop hdrop
    have hfirst : Loop.Reaches (parseStep sec key buf) (.outer i) (.outer (i + 1)) :=
      goes_outer hread hc.2 hi (Or.inr (by simpa using hhead))
    obtain ⟨hreach, hstart⟩ := reaches_outer_inside sec key (drop_succ hdrop)
      (fun d hd => hxs d (by simp [hd]))
      (by rw [atLineStart_succ hread, hc.1])
    have hlen : i + (c :: xs).length = i + 1 + xs.length := by simp; omega
    rw [hlen]
    refine (hfirst.trans hreach).trans (reaches_outer_lineEnd (s := s) ?_ hstart)
    rw [← hlen]
    exact drop_add hdrop

/-! ### The scan of a header -/

/-- A header that does not abbreviate the section is passed; one that does leads to the lines
that follow, after the white space between them. -/
lemma advance_header {name s : Text} (hdrop : buf.drop i = '[' :: (name ++ ']' :: s))
    (hname : ∀ c ∈ name, c ≠ nul ∧ c ≠ ']') (hsec : nul ∉ sec)
    (hi : atLineStart buf i = .ok true) :
    advance sec buf (.outer i) =
      if fold name <+: fold sec then
        skipWhile isspace buf (i + name.length + 2) >>= fun j => .ok (.goto (.lines (i + 1) j j))
      else .ok (.goto (.outer (i + name.length + 1))) := by
  have hread := read_of_drop hdrop
  have hdrop' : buf.drop (i + 1) = name ++ ']' :: s := drop_succ hdrop
  have hskip : skipWhile (fun c => !rightBrace c && !endOfString c) buf (i + 1) =
      .ok (i + 1 + name.length) := by
    refine skipWhile_of_drop hdrop' (fun c hc => ?_) (by decide)
    obtain ⟨hnul, hne⟩ := hname c hc
    simp [rightBrace, endOfString, hne, hnul]
  have hnul : nul ∉ name := fun h => (hname nul h).1 rfl
  obtain ⟨r, hr, hiff⟩ := strncasecmp_left (']' :: s) [] hnul hsec
  have hlen : i + 1 + name.length - (i + 1) = name.length := by omega
  have hend : endOfString '[' = false := by decide
  have hleft : leftBarce '[' = true := by decide
  rw [← hdrop'] at hr
  simp only [advance, hread, ok_bind, hend, hi, hleft, Bool.and_self, Bool.false_eq_true, if_false,
    if_true, enterSection, hskip, hlen, cstr, hr, hiff, pure_eq_ok]
  congr 2 <;> grind

/-! ### The scan inside the section -/

/-- A line can be met at `i`: it does not start there with `[` after a newline. -/
def Meets (buf line : Text) (i : ℕ) : Prop :=
  ∃ j c, i = j + 1 ∧ read buf j = .ok c ∧ (newline c = true → line.head? ≠ some '[')

lemma AfterNewline.meets {line : Text} (h : AfterNewline buf i) (hhead : line.head? ≠ some '[') :
    Meets buf line i := by
  obtain ⟨j, c, rfl, hread, -⟩ := h
  exact ⟨j, c, rfl, hread, fun _ => hhead⟩

/-- At a header the scan leaves the section. -/
lemma advance_lines_header {secS secE : ℕ} (hread : read buf i = .ok '[')
    (hi : AfterNewline buf i) :
    advance sec buf (.lines secS secE i) = .ok (.goto (.outer i)) := by
  obtain ⟨j, c, rfl, hc, hnl⟩ := hi
  simp only [advance, Nat.add_sub_cancel, hc, ok_bind, hread, hnl, leftBarce, beq_self_eq_true,
    Bool.and_self, Bool.true_or, if_true, pure_eq_ok]

variable (sec) in
/-- A line that is not a header is met as such. -/
lemma advance_line (secS secE : ℕ) {line s : Text} {c : Char} (hdrop : buf.drop i = line ++ c :: s)
    (hline : ∀ x ∈ line, Inside x) (hc : (newline c || endOfString c) = true)
    (hnul : (line ++ [c]).head? ≠ some nul) (hi : Meets buf line i) :
    advance sec buf (.lines secS secE i) = .ok (.line ⟨secS, secE, i, i + line.length⟩) ∧
      IsLine buf ⟨secS, secE, i, i + line.length⟩ line := by
  refine ⟨?_, ⟨⟨c, s, hdrop, hc⟩, hline, rfl⟩⟩
  obtain ⟨j, p, rfl, hp, hhead⟩ := hi
  obtain ⟨d, hd, hread⟩ : ∃ d, (line ++ [c]).head? = some d ∧ read buf (j + 1) = .ok d := by
    cases line with
    | nil => exact ⟨c, rfl, read_of_drop hdrop⟩
    | cons a t => exact ⟨a, rfl, read_of_drop hdrop⟩
  have hleft : (newline p && leftBarce d) = false := by
    rw [Bool.and_eq_false_imp]
    intro hnl
    rw [leftBarce, beq_eq_false_iff_ne]
    rintro rfl
    cases line with
    | nil =>
      obtain rfl : c = '[' := Option.some.inj hd
      exact absurd hc (by decide)
    | cons a t => exact hhead hnl hd
  have hend : endOfString d = false := by
    rw [hd] at hnul
    simpa [endOfString] using hnul
  have hskip : skipWhile (fun c => !newline c && !endOfString c) buf (j + 1) =
      .ok (j + 1 + line.length) := by
    refine skipWhile_of_drop hdrop (fun x hx => ?_) (by simpa [← Bool.not_or] using hc)
    simpa [Inside, ← Bool.not_or] using hline x hx
  simp only [advance, Nat.add_sub_cancel, hp, ok_bind, hread, hleft, hend, Bool.or_self,
    Bool.false_eq_true, if_false, hskip, pure_eq_ok]

variable (sec) in
/-- A line that does not match is passed. -/
lemma reaches_lines_newline (secS secE : ℕ) {line s : Text} {c : Char}
    (hdrop : buf.drop i = line ++ c :: s) (hline : ∀ x ∈ line, Inside x) (hc : newline c = true)
    (hkey : nul ∉ key) (hno : ∀ set ∈ settingOf line, ¬ fold set.key <+: fold key)
    (hi : Meets buf line i) :
    Loop.Reaches (parseStep sec key buf) (.lines secS secE i)
        (.lines secS secE (i + line.length + 1)) ∧
      AfterNewline buf (i + line.length + 1) := by
  refine ⟨?_, afterNewline_of_drop hdrop hc⟩
  have hfirst : (line ++ [c]).head? ≠ some nul := by
    cases line with
    | nil =>
      rintro h
      obtain rfl : c = nul := Option.some.inj h
      exact absurd hc (by decide)
    | cons a t =>
      have ha : Inside a := hline a (by simp)
      simp only [Inside, endOfString, Bool.or_eq_false_iff, beq_eq_false_iff_ne] at ha
      simpa using ha.2
  obtain ⟨hadv, hisLine⟩ := advance_line sec secS secE hdrop hline (by simp [hc]) hfirst hi
  have hmatch : matchLine key buf ⟨secS, secE, i, i + line.length⟩ = .ok none := by
    rw [matchLine_eq hkey hisLine]
    have hfilter : (settingOf line).filter (fun s => decide (fold s.key <+: fold key)) = none :=
      Option.filter_eq_none_iff.2 fun set hset => by simpa using hno set hset
    rw [hfilter, Option.map_none]
  exact .single (parseStep_of_line hadv hmatch)

variable (sec) in
/-- The same with the end of the line; a CR LF is for the scan the end of one line and an empty
line. -/
lemma reaches_lines (secS secE : ℕ) {line s : Text} {e : LineEnd} (he : e ≠ .eof)
    (hdrop : buf.drop i = line ++ (e.text ++ s)) (hline : ∀ x ∈ line, Inside x)
    (hkey : nul ∉ key) (hno : ∀ set ∈ settingOf line, ¬ fold set.key <+: fold key)
    (hi : Meets buf line i) :
    Loop.Reaches (parseStep sec key buf) (.lines secS secE i)
        (.lines secS secE (i + line.length + e.text.length)) ∧
      AfterNewline buf (i + line.length + e.text.length) := by
  cases e with
  | lf => exact reaches_lines_newline sec secS secE hdrop hline (by decide) hkey hno hi
  | crlf =>
    obtain ⟨h₁, hi₁⟩ := reaches_lines_newline sec secS secE (s := '\n' :: s) hdrop hline
      (by decide) hkey hno hi
    have hdrop' : buf.drop (i + line.length + 1) = [] ++ '\n' :: s := drop_succ (drop_add hdrop)
    obtain ⟨h₂, hi₂⟩ := reaches_lines_newline sec secS secE hdrop' (by simp)
      (by decide) hkey (by simp [settingOf]) (hi₁.meets (by simp))
    exact ⟨h₁.trans h₂, hi₂⟩
  | eof => exact absurd rfl he

/-! ### The scan of a file -/

/-- From the cursor the scan ends with a match, of a value that reads `v` up to blanks. -/
def Finds (sec key buf : Text) (c : Cursor) (v : Text) : Prop :=
  ∃ c' spans, Loop.Reaches (parseStep sec key buf) c c' ∧
    parseStep sec key buf c' = .ok (.inr (some spans)) ∧
    ∃ b : Blanks, (buf.drop spans.valueS).take (spans.valueE - spans.valueS) = v ++ (b : Text)

lemma Finds.of_reaches {c c' : Cursor} {v : Text} (h : Finds sec key buf c' v)
    (hc : Loop.Reaches (parseStep sec key buf) c c') : Finds sec key buf c v := by
  obtain ⟨d, spans, hd, hspans⟩ := h
  exact ⟨d, spans, hc.trans hd, hspans⟩

/-- A setting that matches is found. -/
lemma finds_setting {w : Written} {k v s : Text} {c : Char} {secS secE : ℕ}
    (hw : w.line = .setting k v) (hwf : w.line.WellFormed) (hdrop : buf.drop i = w.text ++ c :: s)
    (hc : (newline c || endOfString c) = true) (hkey : nul ∉ key) (hk : fold k <+: fold key)
    (hi : AfterNewline buf i) : Finds sec key buf (.lines secS secE i) v := by
  obtain ⟨a, hhead, ha⟩ := w.text_setting hw hwf
  have hfirst : (w.text ++ [c]).head? = some a := by rw [List.head?_append, hhead, Option.some_or]
  obtain ⟨hadv, hisLine⟩ := advance_line sec secS secE hdrop
    (w.inside_text hwf) hc (by simpa [hfirst] using (plain_iff.1 ha.1).2)
    (hi.meets (by simpa [hhead] using ha.2))
  have hset := w.settingOf_text hw hwf
  have hmatch := matchLine_eq hkey hisLine
  simp only [hset, Option.filter, hk, decide_true, if_true, Option.map_some] at hmatch
  exact ⟨_, _, .refl _, parseStep_of_match hadv hmatch, w.trailing, hisLine.take_drop_spans hset⟩

lemma atLineStart_ok (hi : i ≤ buf.length) : ∃ b, atLineStart buf i = .ok b := by
  cases i with
  | zero => exact ⟨true, rfl⟩
  | succ j =>
    have hread : read buf j = .ok buf[j] := read_eq_ok.2 (by simp)
    exact ⟨newline buf[j], atLineStart_succ hread⟩

lemma afterNewline_lineEnd {xs s : Text} {e : LineEnd} (he : e ≠ .eof)
    (hdrop : buf.drop i = xs ++ (e.text ++ s)) :
    AfterNewline buf (i + xs.length + e.text.length) := by
  cases e with
  | lf =>
    have : buf.drop i = xs ++ '\n' :: s := hdrop
    exact afterNewline_of_drop this (by decide)
  | crlf =>
    have : buf.drop i = (xs ++ ['\r']) ++ '\n' :: s := by simpa [LineEnd.text] using hdrop
    simpa [LineEnd.text, Nat.add_assoc] using afterNewline_of_drop this (by decide)
  | eof => exact absurd rfl he

lemma isspace_lineEnd (e : LineEnd) : ∀ c ∈ e.text, isspace c = true := by
  cases e <;> decide

/-- A header is passed, or it leads to the lines of its section. -/
lemma finds_header {name v s : Text} {e : LineEnd} (hname : ∀ c ∈ name, plain c = true ∧ c ≠ ']')
    (hsec : nul ∉ sec) (hdrop : buf.drop i = '[' :: (name ++ [']']) ++ (e.text ++ s))
    (hout : ¬ fold name <+: fold sec →
      Finds sec key buf (.outer (i + (name.length + 2) + e.text.length)) v)
    (hin : fold name <+: fold sec → ∃ j,
      skipWhile isspace buf (i + (name.length + 2) + e.text.length) = .ok j ∧
        ∀ secS secE, Finds sec key buf (.lines secS secE j) v)
    (hi : atLineStart buf i = .ok true) : Finds sec key buf (.outer i) v := by
  have hdrop' : buf.drop i = '[' :: (name ++ ']' :: (e.text ++ s)) := by simpa using hdrop
  have hadv := advance_header hdrop' (fun c hc => ⟨(plain_iff.1 (hname c hc).1).2, (hname c hc).2⟩)
    hsec hi
  have hend : buf.drop (i + name.length + 2) = e.text ++ s := by
    have := drop_add hdrop
    simpa [Nat.add_assoc] using this
  split at hadv
  · next hfold =>
    obtain ⟨j, hj, hfinds⟩ := hin hfold
    rw [skipWhile_append hend (isspace_lineEnd e), Nat.add_assoc i, hj, ok_bind] at hadv
    exact (hfinds _ _).of_reaches (.single (parseStep_of_goto hadv))
  · next hfold =>
    refine ((hout hfold).of_reaches ?_).of_reaches (.single (parseStep_of_goto hadv))
    have hbrace : buf.drop (i + name.length + 1) = [']'] ++ (e.text ++ s) := by
      have : buf.drop i = ('[' :: name) ++ (']' :: (e.text ++ s)) := by simpa using hdrop
      simpa [Nat.add_assoc] using drop_add this
    obtain ⟨b, hb⟩ := atLineStart_ok (lt_length_of_read (read_of_drop hbrace)).le
    exact reaches_outer_line hbrace (by decide) (by decide) hb

/-- The scan of some lines from `i` on finds what `findValue` finds in them, wherever it stands:
outside of the section, inside of it, or after its header, with the white space up to the next
text still to pass. -/
structure FindsFrom (sec key buf : Text) (i : ℕ) (ls : List IniLine) (v : Text) : Prop where
  out : findValue sec key false ls = some v → atLineStart buf i = .ok true →
    Finds sec key buf (.outer i) v
  inside : findValue sec key true ls = some v → AfterNewline buf i →
    ∀ secS secE, Finds sec key buf (.lines secS secE i) v
  skip : findValue sec key true ls = some v → AfterNewline buf i →
    ∃ j, skipWhile isspace buf i = .ok j ∧ ∀ secS secE, Finds sec key buf (.lines secS secE j) v

section Step

variable {w : Written} {ls : List IniLine} {v s : Text}
  (hdrop : buf.drop i = w.text ++ (w.lineEnd.text ++ s)) (hwf : w.line.WellFormed)
  (hended : ∀ b, findValue sec key b ls = some v → w.lineEnd ≠ .eof)
  (hrest : FindsFrom sec key buf (i + w.text.length + w.lineEnd.text.length) ls v)

include hdrop hended hrest

lemma findsFrom_empty (hkey : nul ∉ key) (hw : w.line = .empty) :
    FindsFrom sec key buf i (.empty :: ls) v := by
  have htext : w.text = [] := by rw [Written.text, hw]
  simp only [htext, List.nil_append, List.length_nil, Nat.add_zero] at hdrop hrest
  have hdrop₀ : buf.drop i = [] ++ (w.lineEnd.text ++ s) := hdrop
  have hafter : w.lineEnd ≠ .eof → AfterNewline buf (i + w.lineEnd.text.length) := fun he =>
    afterNewline_lineEnd he hdrop₀
  refine ⟨fun hfind hi => ?_, fun hfind hi secS secE => ?_, fun hfind hi => ?_⟩
  · rw [findValue] at hfind
    exact (hrest.out hfind (hafter (hended _ hfind)).atLineStart).of_reaches
      (reaches_outer_lineEnd hdrop hi)
  · rw [findValue] at hfind
    have hreach := (reaches_lines sec secS secE (hended _ hfind) hdrop₀ (by simp) hkey
      (by simp [settingOf]) (hi.meets (by simp))).1
    exact (hrest.inside hfind (hafter (hended _ hfind)) secS secE).of_reaches hreach
  · rw [findValue] at hfind
    rw [skipWhile_append hdrop (isspace_lineEnd _)]
    exact hrest.skip hfind (hafter (hended _ hfind))

include hwf

lemma findsFrom_header {name : Text} (hsec : nul ∉ sec) (hw : w.line = .header name) :
    FindsFrom sec key buf i (.header name :: ls) v := by
  have htext : w.text = '[' :: (name ++ [']']) := by rw [Written.text, hw]
  rw [hw] at hwf
  have hlen : w.text.length = name.length + 2 := by simp [htext]
  have hafter : w.lineEnd ≠ .eof → AfterNewline buf (i + w.text.length + w.lineEnd.text.length) :=
    fun he => afterNewline_lineEnd he hdrop
  rw [hlen] at hafter hrest
  rw [htext] at hdrop
  have hout : findValue sec key (decide (fold name <+: fold sec)) ls = some v →
      atLineStart buf i = .ok true → Finds sec key buf (.outer i) v := by
    intro hfind hi
    refine finds_header hwf hsec hdrop (fun hfold => ?_) (fun hfold => ?_) hi
    · rw [decide_eq_false hfold] at hfind
      exact hrest.out hfind (hafter (hended _ hfind)).atLineStart
    · rw [decide_eq_true hfold] at hfind
      exact hrest.skip hfind (hafter (hended _ hfind))
  have hin : findValue sec key (decide (fold name <+: fold sec)) ls = some v →
      AfterNewline buf i → ∀ secS secE, Finds sec key buf (.lines secS secE i) v := by
    intro hfind hi secS secE
    exact (hout hfind hi.atLineStart).of_reaches
      (.single (parseStep_of_goto (advance_lines_header (read_of_drop hdrop) hi)))
  refine ⟨hout, hin, fun hfind hi => ⟨i, ?_, hin hfind hi⟩⟩
  exact skipWhile_self hdrop (by decide)

lemma findsFrom_setting {k value t : Text} {c : Char} (hkey : nul ∉ key)
    (hw : w.line = .setting k value) (hs : w.lineEnd.text ++ s = c :: t)
    (hc : (newline c || endOfString c) = true) :
    FindsFrom sec key buf i (.setting k value :: ls) v := by
  obtain ⟨a, hhead, ha, hbrace⟩ := w.text_setting hw hwf
  have hhead' : w.text.head? ≠ some '[' := by simpa [hhead] using hbrace
  have hafter : w.lineEnd ≠ .eof → AfterNewline buf (i + w.text.length + w.lineEnd.text.length) :=
    fun he => afterNewline_lineEnd he hdrop
  have hin : findValue sec key true (.setting k value :: ls) = some v → AfterNewline buf i →
      ∀ secS secE, Finds sec key buf (.lines secS secE i) v := by
    intro hfind hi secS secE
    by_cases hk : fold k <+: fold key
    · -- this line matches
      rw [findValue, if_pos ⟨rfl, hk⟩] at hfind
      obtain rfl := Option.some.inj hfind
      exact finds_setting hw hwf (hs ▸ hdrop) hc hkey hk hi
    · -- the match is further down
      rw [findValue, if_neg fun h => hk h.2] at hfind
      have hno : ∀ set ∈ settingOf w.text, ¬ fold set.key <+: fold key := by
        rw [w.settingOf_text hw hwf]
        rintro set hset
        obtain rfl := Option.some.inj hset
        exact hk
      exact (hrest.inside hfind (hafter (hended _ hfind)) secS secE).of_reaches
        (reaches_lines sec secS secE (hended _ hfind) hdrop (w.inside_text hwf) hkey hno
          (hi.meets hhead')).1
  refine ⟨fun hfind hi => ?_, hin, fun hfind hi => ⟨i, ?_, hin hfind hi⟩⟩
  · -- outside of the section the line is passed, whatever it sets
    rw [findValue, if_neg fun h => Bool.false_ne_true h.1] at hfind
    exact (hrest.out hfind (hafter (hended _ hfind)).atLineStart).of_reaches
      (reaches_outer_line hdrop (w.inside_text hwf) hhead' hi)
  · obtain ⟨u, hu⟩ : ∃ u, w.text = a :: u := List.head?_eq_some_iff.1 hhead
    rw [hu] at hdrop
    exact skipWhile_self hdrop (plain_iff.1 ha).1

end Step

lemma findsFrom_render {ws : List Written} {v s : Text} (hws : WellWritten ws) (hsec : nul ∉ sec)
    (hkey : nul ∉ key) (hdrop : buf.drop i = render ws ++ nul :: s) :
    FindsFrom sec key buf i (ws.map (·.line)) v := by
  induction ws generalizing i with
  | nil => exact ⟨by simp [findValue], by simp [findValue], by simp [findValue]⟩
  | cons w ws ih =>
    have hwf : w.line.WellFormed := hws.lines w (by simp)
    have hdrop' : buf.drop i = w.text ++ (w.lineEnd.text ++ (render ws ++ nul :: s)) := by
      simpa [render] using hdrop
    have hrest := ih ⟨fun w' h => hws.lines w' (by simp [h]), (List.pairwise_cons.1 hws.ended).2⟩
      (drop_add (drop_add hdrop'))
    -- if something is found further down, this line is not the last one
    have hended : ws ≠ [] → w.lineEnd ≠ .eof := fun hne =>
      (List.pairwise_cons.1 hws.ended).1 _ (List.head_mem hne)
    have hended' : ∀ b, findValue sec key b (ws.map (·.line)) = some v → w.lineEnd ≠ .eof := by
      rintro b hfind
      refine hended ?_
      rintro rfl
      simp [findValue] at hfind
    rw [List.map_cons]
    rcases hw : w.line with _ | name | ⟨k, value⟩
    · exact findsFrom_empty hdrop' hended' hrest hkey hw
    · exact findsFrom_header hdrop' hwf hended' hrest hsec hw
    · obtain ⟨c, t, ht, hc⟩ : ∃ c t, w.lineEnd.text ++ (render ws ++ nul :: s) = c :: t ∧
          (newline c || endOfString c) = true := by
        rcases he : w.lineEnd
        · exact ⟨_, _, rfl, by decide⟩
        · exact ⟨_, _, rfl, by decide⟩
        · obtain rfl : ws = [] := by
            by_contra hne
            exact hended hne he
          exact ⟨_, _, rfl, by decide⟩
      exact findsFrom_setting hdrop' hwf hended' hrest hkey hw ht hc

end Scan

/-- What `findValue` finds in the lines of a file is what `parse_file` finds in the file, up to
blanks after the value. -/
theorem lookup_render {sec key v : Text} {ws : List Written} (hws : WellWritten ws)
    (hsec : strlenPos sec) (hsec' : nul ∉ sec) (hkey : strlenPos key) (hkey' : nul ∉ key)
    (hbytes : eofChar ∉ render ws) (hsize : (render ws).length < maxIniFileSize)
    (h : findValue sec key false (ws.map (·.line)) = some v) :
    ∃ b : Blanks, lookup (some (render ws)) sec key = .ok (some (v ++ (b : Text))) := by
  have htake : (render ws).takeWhile (· != eofChar) = render ws :=
    List.takeWhile_eq_self_iff.2 fun c hc => by
      have : c ≠ eofChar := fun h => hbytes (h ▸ hc)
      simpa using this
  have hload := loadIniFile_some (render ws)
  rw [htake, if_pos hsize, bufferOf_of_notMem hbytes] at hload
  -- the buffer has room for a terminator
  obtain ⟨n, hn⟩ : ∃ n, maxIniFileSize - (render ws).length = n + 1 :=
    ⟨maxIniFileSize - (render ws).length - 1, by omega⟩
  rw [hn, List.replicate_succ] at hload
  have hfinds : FindsFrom sec key (render ws ++ nul :: List.replicate n nul) 0
      (ws.map (·.line)) v := findsFrom_render hws hsec' hkey' rfl
  obtain ⟨c, spans, hreach, hmatch, b, hb⟩ := hfinds.out h rfl
  have hparse := parseFile_eq_of_reaches hsec hkey hreach hmatch
  exact ⟨b, by simp only [lookup, hload, ok_bind, hparse, hb, pure_eq_ok]⟩

end Conf
