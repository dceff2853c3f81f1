import Gb28181.Conf.IniText

/-!
# Settings that are present

A well-formed text is a list of lines, each of which is empty, a comment, a header or a setting;
`parse_file` finds every setting in it, under any header of its section and whatever surrounds it
(`parseFile_finds`).  The one exception is a key that starts with white space other than a blank
(a vertical tab or a form feed) and is the first text below its header, since the scan passes all
white space there.
-/

namespace Conf

open Lib

/-! ### Well-formed texts -/

/-- A line: a comment with its text after `#`, a header with what follows its `]`, a setting with
the blanks around its `=`. -/
inductive FileLine where
  | empty
  | comment (text : Text)
  | header (name rest : Text)
  | setting (key : Text) (before after : Blanks) (value : Text)

def FileLine.text : FileLine → Text
  | .empty => []
  | .comment text => '#' :: text
  | .header name rest => '[' :: (name ++ ']' :: rest)
  | .setting key before after value => (key ++ (before : Text)) ++ '=' :: ((after : Text) ++ value)

/-- A header is closed on its line; a key is not empty, contains no `=`, starts with none of `[`,
`#` and a blank, and does not end with a blank. -/
def FileLine.WellFormed : FileLine → Prop
  | .empty => True
  | .comment text => ∀ c ∈ text, Inside c
  | .header name rest => (∀ c ∈ name, Inside c ∧ c ≠ ']') ∧ ∀ c ∈ rest, Inside c
  | .setting key _ _ value =>
    key ≠ [] ∧ (∀ c ∈ key, Inside c ∧ c ≠ '=') ∧
      (∀ c ∈ key.head?, c ≠ '[' ∧ c ≠ '#' ∧ blank c = false) ∧
      (∀ c ∈ key.getLast?, blank c = false) ∧ ∀ c ∈ value, Inside c

/-- A line with its end. -/
structure FileRow where
  line : FileLine
  lineEnd : LineEnd

/-- The text of some lines. -/
def textOf (rows : List FileRow) : Text := rows.flatMap fun r => r.line.text ++ r.lineEnd.text

/-- A text of well-formed lines, of which only the last one can be unterminated. -/
structure WellFormedText (rows : List FileRow) : Prop where
  lines : ∀ r ∈ rows, r.line.WellFormed
  ended : rows.Pairwise fun (r : FileRow) (_ : FileRow) => r.lineEnd ≠ .eof

/-- Where a line stands: not in the section, below the header of the section with nothing but white
space between them, or further down in the section. -/
inductive Place where
  | outside
  | below
  | inside
  deriving DecidableEq

/-- The place after a line with a text. -/
def Place.entered : Place → Place
  | .outside => .outside
  | .below | .inside => .inside

def Place.next (sec : Text) (p : Place) : FileLine → Place
  | .empty => p
  | .comment _ => p.entered
  | .header name rest =>
    if fold name = fold sec then if rest.all isspace then .below else .inside else .outside
  | .setting _ _ _ _ => p.entered

/-- The place after some lines. -/
def place (sec : Text) (pre : List FileLine) : Place := pre.foldl (Place.next sec) .outside

/-- The line sets the key, up to case. -/
def FileLine.Sets (key : Text) : FileLine → Prop
  | .setting k _ _ _ => fold k = fold key
  | _ => False

/-- A line with the key stands under a header with the name of the section. -/
def Present (sec key : Text) (ls : List FileLine) : Prop :=
  ∃ (pre : List FileLine) (l : FileLine) (post : List FileLine), ls = pre ++ l :: post ∧
    place sec pre ≠ .outside ∧ l.Sets key

/-- Such a line is not the first text below its header, or it does not start with white space. -/
def Shown (sec key : Text) (ls : List FileLine) : Prop :=
  ∃ (pre : List FileLine) (l : FileLine) (post : List FileLine), ls = pre ++ l :: post ∧
    place sec pre ≠ .outside ∧ l.Sets key ∧
    (place sec pre = .below → ∀ c ∈ l.text.head?, isspace c = false)

variable {sec key buf : Text} {i j : ℕ} {c c' : Cursor} {p : Place} {l : FileLine}

/-! ### The text of a line -/

lemma FileLine.inside_text (h : l.WellFormed) : ∀ x ∈ l.text, Inside x := by
  cases l with
  | empty => simp [text]
  | comment t =>
    intro x hx
    rcases List.mem_cons.1 hx with rfl | hx
    · decide
    · exact h x hx
  | header name rest =>
    intro x hx
    rcases List.mem_cons.1 hx with rfl | hx
    · decide
    rcases List.mem_append.1 hx with hx | hx
    · exact (h.1 x hx).1
    rcases List.mem_cons.1 hx with rfl | hx
    · decide
    · exact h.2 x hx
  | setting k b a v =>
    obtain ⟨-, hk, -, -, hv⟩ := h
    intro x hx
    rcases List.mem_append.1 hx with hx | hx
    · rcases List.mem_append.1 hx with hx | hx
      · exact (hk x hx).1
      · exact inside_of_blank (b.2 x hx)
    rcases List.mem_cons.1 hx with rfl | hx
    · decide
    rcases List.mem_append.1 hx with hx | hx
    · exact inside_of_blank (a.2 x hx)
    · exact hv x hx

/-- A setting reads back with its key. -/
lemma settingOf_text {k v : Text} {b a : Blanks} (h : (FileLine.setting k b a v).WellFormed) :
    ∃ set, settingOf (FileLine.setting k b a v).text = some set ∧ set.key = k := by
  obtain ⟨hne, hk, hhead, hlast, -⟩ := h
  refine ⟨_, settingOf_append (by simp [hne]) ?_ ?_, trimKey_append_blanks hne hlast b.2⟩
  · intro hmem
    rcases List.mem_append.1 hmem with hmem | hmem
    · exact (hk _ hmem).2 rfl
    · exact absurd (b.2 _ hmem) (by decide)
  · rw [List.head?_append_of_ne_nil _ hne]
    intro hhash
    exact (hhead _ hhash).2.1 rfl

/-- Only a header starts with `[`. -/
lemma head?_text_ne (h : l.WellFormed) (hl : ∀ name rest, l ≠ .header name rest) :
    l.text.head? ≠ some '[' := by
  cases l with
  | empty => simp [FileLine.text]
  | comment => simp [FileLine.text]
  | header name rest => exact absurd rfl (hl name rest)
  | setting k b a v =>
    obtain ⟨hne, -, hhead, -⟩ := h
    rw [FileLine.text, List.append_assoc, List.head?_append_of_ne_nil _ hne]
    intro hbrace
    exact (hhead _ hbrace).1 rfl

/-! ### Where the scan stands -/

/-- From the cursor the scan ends with a match. -/
def Found (sec key buf : Text) (c : Cursor) : Prop :=
  ∃ (c' : Cursor) (spans : Spans), Loop.Reaches (parseStep sec key buf) c c' ∧
    parseStep sec key buf c' = .ok (.inr (some spans))

lemma Found.of_reaches (h : Found sec key buf c') (hc : Loop.Reaches (parseStep sec key buf) c c') :
    Found sec key buf c := by
  obtain ⟨d, spans, hd, hspans⟩ := h
  exact ⟨d, spans, hc.trans hd, hspans⟩

/-- The scan stands before the line that starts at `i`: at its start, outside of all sections or in
one, or, when white space was passed after a header, at the next text. -/
inductive At (buf : Text) : Place → ℕ → Cursor → Prop
  | outer {i : ℕ} (h : atLineStart buf i = .ok true) : At buf .outside i (.outer i)
  | lines {i : ℕ} (p : Place) (secS secE : ℕ) (h : AfterNewline buf i) :
      At buf p i (.lines secS secE i)
  | skipped {i j : ℕ} {p : Place} (secS secE : ℕ) (hp : p ≠ .inside) (h : AfterNewline buf i)
      (hj : skipWhile isspace buf i = .ok j) : At buf p i (.lines secS secE j)

/-- The scan passes what is at `i`, or it finds the key there. -/
def Passes (sec key buf : Text) (c : Cursor) (p : Place) (i : ℕ) : Prop :=
  Found sec key buf c ∨ ∃ c', Loop.Reaches (parseStep sec key buf) c c' ∧ At buf p i c'

lemma Passes.of_reaches (h : Passes sec key buf c' p i)
    (hc : Loop.Reaches (parseStep sec key buf) c c') : Passes sec key buf c p i := by
  rcases h with h | ⟨d, hd, hat⟩
  · exact Or.inl (h.of_reaches hc)
  · exact Or.inr ⟨d, hc.trans hd, hat⟩

/-- A text that is not all white space starts with some, and goes on with a character that is
none. -/
lemma split_white {xs : Text} (h : ¬ xs.all isspace = true) :
    ∃ ws d t, xs = ws ++ d :: t ∧ (∀ x ∈ ws, isspace x = true) ∧ isspace d = false := by
  obtain ⟨d, t, ht⟩ : ∃ d t, xs.dropWhile isspace = d :: t := by
    refine List.exists_cons_of_ne_nil fun hnil => h ?_
    rw [List.all_eq_true]
    exact List.dropWhile_eq_nil_iff.1 hnil
  have hd := List.head?_dropWhile_not isspace xs
  rw [ht] at hd
  refine ⟨xs.takeWhile isspace, d, t, ?_, fun x hx => List.mem_takeWhile_imp hx, hd⟩
  rw [← ht, List.takeWhile_append_dropWhile]

lemma Meets.skip {xs ys s : Text} (h : Meets buf (xs ++ ys) i) (hdrop : buf.drop i = xs ++ s)
    (hxs : ∀ x ∈ xs, Inside x) : Meets buf ys (i + xs.length) := by
  rcases List.eq_nil_or_concat' xs with rfl | ⟨xs, x, rfl⟩
  · exact h
  · have hx : Inside x := hxs x (by simp)
    rw [Inside, Bool.or_eq_false_iff] at hx
    refine ⟨i + xs.length, x, by simp; omega, ?_, fun hnl => ?_⟩
    · refine read_add_length (s := s) ?_
      rw [hdrop, List.append_assoc, List.singleton_append]
    · exact absurd (hx.1.symm.trans hnl) Bool.false_ne_true

section Line

variable {line s : Text} {e : LineEnd} (secS secE : ℕ)

/-- A line whose key begins the requested one is found. -/
lemma found_of_beginsKey {x : Char} (hdrop : buf.drop i = line ++ x :: s)
    (hline : ∀ x ∈ line, Inside x) (hx : (newline x || endOfString x) = true) (hkey : nul ∉ key)
    (hset : ∃ set ∈ settingOf line, fold set.key <+: fold key) (hi : Meets buf line i) :
    Found sec key buf (.lines secS secE i) := by
  obtain ⟨set, hset, hprefix⟩ := hset
  have hnul : (line ++ [x]).head? ≠ some nul := by
    cases line with
    | nil => simp [settingOf] at hset
    | cons a t =>
      have ha : Inside a := hline a (by simp)
      simp only [Inside, endOfString, Bool.or_eq_false_iff, beq_eq_false_iff_ne] at ha
      simpa using ha.2
  obtain ⟨hadv, hisLine⟩ := advance_line sec secS secE hdrop hline hx hnul hi
  have hmatch := matchLine_eq hkey hisLine
  rw [hset] at hmatch
  simp only [Option.filter, hprefix, decide_true, if_true, Option.map_some] at hmatch
  exact ⟨_, _, .refl _, parseStep_of_match hadv hmatch⟩

/-- A line is passed, unless its key begins the requested one. -/
lemma found_or_passes (he : e ≠ .eof) (hdrop : buf.drop i = line ++ (e.text ++ s))
    (hline : ∀ x ∈ line, Inside x) (hkey : nul ∉ key) (hi : Meets buf line i) :
    Passes sec key buf (.lines secS secE i) p (i + line.length + e.text.length) := by
  by_cases hset : ∃ set ∈ settingOf line, fold set.key <+: fold key
  · left
    cases e with
    | lf => exact found_of_beginsKey secS secE hdrop hline (by decide) hkey hset hi
    | crlf =>
      exact found_of_beginsKey (s := '\n' :: s) secS secE hdrop hline (by decide) hkey hset hi
    | eof => exact absurd rfl he
  · have hno : ∀ set ∈ settingOf line, ¬ fold set.key <+: fold key := by
      intro set hmem hprefix
      exact hset ⟨set, hmem, hprefix⟩
    obtain ⟨hreach, hafter⟩ := reaches_lines sec secS secE he hdrop hline hkey hno hi
    exact Or.inr ⟨_, hreach, .lines p secS secE hafter⟩

/-- The same after the white space at its start. -/
lemma found_or_passes_skip (he : e ≠ .eof) (hdrop : buf.drop i = line ++ (e.text ++ s))
    (hline : ∀ x ∈ line, Inside x) (hkey : nul ∉ key) (hi : Meets buf line i)
    (htext : ¬ line.all isspace = true) (hj : skipWhile isspace buf i = .ok j) :
    Passes sec key buf (.lines secS secE j) p (i + line.length + e.text.length) := by
  obtain ⟨ws, d, t, rfl, hwhite, hd⟩ := split_white htext
  have hdrop' : buf.drop i = ws ++ (d :: t ++ (e.text ++ s)) := by
    rw [hdrop, List.append_assoc]
  obtain rfl : i + ws.length = j := by
    rw [List.cons_append] at hdrop'
    exact Except.ok.inj ((skipWhile_of_drop hdrop' hwhite hd).symm.trans hj)
  rw [List.length_append, ← Nat.add_assoc]
  refine found_or_passes secS secE he (drop_add hdrop') (fun x hx => ?_) hkey ?_
  · exact hline x (List.mem_append_right _ hx)
  · exact Meets.skip hi hdrop' fun x hx => hline x (List.mem_append_left _ hx)

end Line

/-! ### One line -/

/-- White space ends where some other text is left. -/
lemma exists_skipWhile {xs s : Text} (hdrop : buf.drop i = xs ++ s)
    (hxs : ¬ xs.all isspace = true) : ∃ j, skipWhile isspace buf i = .ok j := by
  obtain ⟨ws, d, t, rfl, hwhite, hd⟩ := split_white hxs
  rw [List.append_assoc, List.cons_append] at hdrop
  exact ⟨_, skipWhile_of_drop hdrop hwhite hd⟩

/-- The rest of a header of another section is passed, from its `]` on. -/
lemma reaches_after_name {rest s : Text} {e : LineEnd} {k : ℕ}
    (hrest : ∀ x ∈ rest, Inside x) (hdrop : buf.drop k = ']' :: (rest ++ (e.text ++ s))) :
    Loop.Reaches (parseStep sec key buf) (.outer k)
      (.outer (k + 1 + rest.length + e.text.length)) := by
  obtain ⟨b, hb⟩ := atLineStart_ok (lt_length_of_read (read_of_drop hdrop)).le
  have hinside : ∀ x ∈ ']' :: rest, Inside x := by
    intro x hx
    rcases List.mem_cons.1 hx with rfl | hx
    · decide
    · exact hrest x hx
  have hreach : Loop.Reaches (parseStep sec key buf) (.outer k)
      (.outer (k + (']' :: rest).length + e.text.length)) :=
    reaches_outer_line hdrop hinside (by simp) hb
  have hlen : k + (']' :: rest).length = k + 1 + rest.length := by
    rw [List.length_cons]
    omega
  rw [hlen] at hreach
  exact hreach

section Step

variable {s : Text} {e : LineEnd} (he : e ≠ .eof) (hkey : nul ∉ key)

include he

/-- An empty line. -/
lemma passes_empty (hkey : nul ∉ key) (hdrop : buf.drop i = e.text ++ s) (hat : At buf p i c) :
    Passes sec key buf c p (i + e.text.length) := by
  have hdrop₀ : buf.drop i = [] ++ (e.text ++ s) := hdrop
  have hafter : AfterNewline buf (i + e.text.length) := afterNewline_lineEnd he hdrop₀
  cases hat with
  | outer h =>
    exact Or.inr ⟨_, reaches_outer_lineEnd hdrop h, .outer hafter.atLineStart⟩
  | lines p secS secE h =>
    exact found_or_passes secS secE he hdrop₀ (by simp) hkey (h.meets (by simp))
  | skipped secS secE hp h hj =>
    rw [skipWhile_append hdrop (isspace_lineEnd e)] at hj
    exact Or.inr ⟨_, .refl _, .skipped secS secE hp hafter hj⟩

include hkey

/-- A comment or a setting. -/
lemma passes_text {line : Text} (hdrop : buf.drop i = line ++ (e.text ++ s))
    (hline : ∀ x ∈ line, Inside x) (hhead : line.head? ≠ some '[')
    (htext : ¬ line.all isspace = true) (hat : At buf p i c) :
    Passes sec key buf c p.entered (i + line.length + e.text.length) := by
  cases hat with
  | outer h =>
    exact Or.inr ⟨_, reaches_outer_line hdrop hline hhead h,
      .outer (afterNewline_lineEnd he hdrop).atLineStart⟩
  | lines p secS secE h =>
    exact found_or_passes secS secE he hdrop hline hkey (h.meets hhead)
  | skipped secS secE hp h hj =>
    exact found_or_passes_skip secS secE he hdrop hline hkey (h.meets hhead) htext hj

variable {name rest : Text}

/-- A header, from outside of all sections. -/
lemma passes_header_outer (hsec : nul ∉ sec) (hwf : (FileLine.header name rest).WellFormed)
    (hdrop : buf.drop i = '[' :: (name ++ ']' :: (rest ++ (e.text ++ s))))
    (hspace : ∃ j,
      skipWhile isspace buf (i + name.length + 2 + rest.length + e.text.length) = .ok j)
    (hi : atLineStart buf i = .ok true) :
    Passes sec key buf (.outer i) (p.next sec (.header name rest))
      (i + name.length + 2 + rest.length + e.text.length) := by
  have hname : ∀ x ∈ name, x ≠ nul ∧ x ≠ ']' := by
    intro x hx
    obtain ⟨hinside, hne⟩ := hwf.1 x hx
    refine ⟨?_, hne⟩
    rintro rfl
    exact absurd hinside (by decide)
  have hadv := advance_header hdrop hname hsec hi
  have hbrace : buf.drop (i + name.length + 1) = ']' :: (rest ++ (e.text ++ s)) := by
    have : buf.drop i = ('[' :: name) ++ ']' :: (rest ++ (e.text ++ s)) := hdrop
    exact drop_add this
  have hrest : buf.drop (i + name.length + 2) = rest ++ (e.text ++ s) := drop_succ hbrace
  have hafter := afterNewline_lineEnd he hrest
  split at hadv
  · by_cases hwhite : rest.all isspace = true
    · -- the white space goes on into the next lines
      obtain ⟨j, hj⟩ := hspace
      rw [skipWhile_append hrest (List.all_eq_true.1 hwhite),
        skipWhile_append (drop_add hrest) (isspace_lineEnd e), hj, ok_bind] at hadv
      refine Or.inr ⟨_, .single (parseStep_of_goto hadv), .skipped _ _ ?_ hafter hj⟩
      rw [Place.next, if_pos hwhite]
      split <;> exact Place.noConfusion
    · -- what follows the `]` is a line of its own
      obtain ⟨j, hj⟩ := exists_skipWhile hrest hwhite
      rw [hj, ok_bind] at hadv
      refine Passes.of_reaches ?_ (.single (parseStep_of_goto hadv))
      refine found_or_passes_skip _ _ he hrest hwf.2 hkey ?_ hwhite hj
      exact ⟨i + name.length + 1, ']', rfl, read_of_drop hbrace, fun hnl => absurd hnl (by decide)⟩
  · -- another section
    next hne =>
    have hout : p.next sec (.header name rest) = .outside := by
      rw [Place.next, if_neg]
      intro heq
      exact hne (heq ▸ List.prefix_rfl)
    have hreach : Loop.Reaches (parseStep sec key buf) (.outer (i + name.length + 1))
        (.outer (i + name.length + 2 + rest.length + e.text.length)) :=
      reaches_after_name hwf.2 hbrace
    rw [hout]
    exact Or.inr ⟨_, (Loop.Reaches.single (parseStep_of_goto hadv)).trans hreach,
      .outer hafter.atLineStart⟩

/-- A header. -/
lemma passes_header (hsec : nul ∉ sec) (hwf : (FileLine.header name rest).WellFormed)
    (hdrop : buf.drop i = '[' :: (name ++ ']' :: (rest ++ (e.text ++ s))))
    (hspace : ∃ j,
      skipWhile isspace buf (i + name.length + 2 + rest.length + e.text.length) = .ok j)
    (hat : At buf p i c) :
    Passes sec key buf c (p.next sec (.header name rest))
      (i + name.length + 2 + rest.length + e.text.length) := by
  have hread := read_of_drop hdrop
  -- from a section the scan goes back to the loop over the sections
  have hlines : ∀ secS secE, AfterNewline buf i →
      Passes sec key buf (.lines secS secE i) (p.next sec (.header name rest))
        (i + name.length + 2 + rest.length + e.text.length) := by
    intro secS secE hafter
    refine Passes.of_reaches (passes_header_outer he hkey hsec hwf hdrop hspace
      hafter.atLineStart) (.single (parseStep_of_goto ?_))
    exact advance_lines_header hread hafter
  cases hat with
  | outer h => exact passes_header_outer he hkey hsec hwf hdrop hspace h
  | lines p secS secE h => exact hlines secS secE h
  | skipped secS secE hp h hj =>
    obtain rfl : i = _ := Except.ok.inj ((skipWhile_self hdrop (by decide)).symm.trans hj)
    exact hlines secS secE h

end Step

/-! ### All lines -/

/-- A line is passed, or the key is found before its end. -/
lemma passes_line {s : Text} {e : LineEnd} (he : e ≠ .eof) (hsec : nul ∉ sec) (hkey : nul ∉ key)
    (hwf : l.WellFormed) (hdrop : buf.drop i = l.text ++ (e.text ++ s))
    (hspace : ∃ j, skipWhile isspace buf (i + l.text.length + e.text.length) = .ok j)
    (hat : At buf p i c) :
    Passes sec key buf c (p.next sec l) (i + l.text.length + e.text.length) := by
  have hinside := FileLine.inside_text hwf
  cases l with
  | empty => exact passes_empty he hkey hdrop hat
  | comment t =>
    refine passes_text he hkey hdrop hinside (head?_text_ne hwf (by simp)) ?_ hat
    simp [FileLine.text, isspace]
  | header name rest =>
    have hlen : i + (FileLine.header name rest).text.length + e.text.length =
        i + name.length + 2 + rest.length + e.text.length := by
      simp only [FileLine.text, List.length_cons, List.length_append]
      omega
    rw [hlen] at hspace ⊢
    refine passes_header he hkey hsec hwf (s := s) ?_ hspace hat
    rw [hdrop, FileLine.text, List.cons_append, List.append_assoc, List.cons_append]
  | setting k b a v =>
    refine passes_text he hkey hdrop hinside (head?_text_ne hwf (by simp)) ?_ hat
    simp [FileLine.text, isspace]

/-- A line with the key is found in its section, where the scan reads all of it. -/
lemma found_of_sets {s : Text} {x : Char} (hkey : nul ∉ key) (hwf : l.WellFormed)
    (hdrop : buf.drop i = l.text ++ x :: s) (hx : (newline x || endOfString x) = true)
    (hsets : l.Sets key) (hp : p ≠ .outside)
    (hshown : p = .below → ∀ y ∈ l.text.head?, isspace y = false) (hat : At buf p i c) :
    Found sec key buf c := by
  cases l with
  | empty | comment | header => exact absurd hsets not_false
  | setting k b a v =>
    obtain ⟨set, hset, hown⟩ := settingOf_text hwf
    have hprefix : fold set.key <+: fold key := by
      have hfold : fold k = fold key := hsets
      rw [hown, hfold]
    have hlines : ∀ secS secE, AfterNewline buf i → Found sec key buf (.lines secS secE i) := by
      intro secS secE hafter
      exact found_of_beginsKey secS secE hdrop (FileLine.inside_text hwf) hx hkey
        ⟨set, hset, hprefix⟩ (hafter.meets (head?_text_ne hwf (by simp)))
    cases hat with
    | outer => exact absurd rfl hp
    | lines p secS secE h => exact hlines secS secE h
    | skipped secS secE hin h hj =>
      -- right below the header white space was skipped, of which the line has none
      have hbelow : p = .below := by
        cases p with
        | outside => exact absurd rfl hp
        | below => rfl
        | inside => exact absurd rfl hin
      obtain ⟨y, t, ht⟩ : ∃ y t, (FileLine.setting k b a v).text = y :: t := by
        refine List.exists_cons_of_ne_nil ?_
        simp [FileLine.text]
      rw [ht, List.cons_append] at hdrop
      obtain rfl : i = _ := Except.ok.inj ((skipWhile_self hdrop
        (hshown hbelow y (by rw [ht, List.head?_cons]; exact rfl))).symm.trans hj)
      exact hlines secS secE h

/-- The text that follows a line ends it. -/
lemma exists_lineEnd {r : FileRow} {rows : List FileRow} {s : Text}
    (h : WellFormedText (r :: rows)) :
    ∃ x t, r.lineEnd.text ++ (textOf rows ++ nul :: s) = x :: t ∧
      (newline x || endOfString x) = true := by
  cases he : r.lineEnd with
  | lf | crlf => exact ⟨_, _, rfl, by decide⟩
  | eof =>
    -- only the last line is unterminated
    cases rows with
    | nil => exact ⟨_, _, rfl, by decide⟩
    | cons r' rows => exact absurd he ((List.pairwise_cons.1 h.ended).1 r' (by simp))

/-- From a place before some lines the scan finds a key that is shown in them. -/
lemma found_of_at {pre post : List FileLine} {rows : List FileRow} {s : Text}
    (hrows : WellFormedText rows) (hsec : nul ∉ sec) (hkey : nul ∉ key)
    (hsplit : rows.map (·.line) = pre ++ l :: post)
    (hdrop : buf.drop i = textOf rows ++ nul :: s) (hsets : l.Sets key)
    (hp : pre.foldl (Place.next sec) p ≠ .outside)
    (hshown : pre.foldl (Place.next sec) p = .below → ∀ y ∈ l.text.head?, isspace y = false)
    (hat : At buf p i c) : Found sec key buf c := by
  induction pre generalizing rows i p c with
  | nil =>
    obtain ⟨r, rows, rfl, rfl, -⟩ := List.map_eq_cons_iff.1 hsplit
    obtain ⟨x, t, ht, hx⟩ := exists_lineEnd hrows (s := s)
    refine found_of_sets hkey (hrows.lines r (by simp)) ?_ hx hsets hp hshown hat (s := t)
    rw [hdrop, ← ht]
    simp [textOf]
  | cons a pre ih =>
    obtain ⟨r, rows, rfl, rfl, hrest⟩ := List.map_eq_cons_iff.1 hsplit
    have hrows' : WellFormedText rows :=
      ⟨fun r' hr' => hrows.lines r' (by simp [hr']), (List.pairwise_cons.1 hrows.ended).2⟩
    have hne : rows ≠ [] := by
      rintro rfl
      simp at hrest
    have he : r.lineEnd ≠ .eof := (List.pairwise_cons.1 hrows.ended).1 _ (List.head_mem hne)
    have hdrop' : buf.drop i = r.line.text ++ (r.lineEnd.text ++ (textOf rows ++ nul :: s)) := by
      rw [hdrop]
      simp [textOf]
    have hnext := drop_add (drop_add hdrop')
    have hnul : ¬ (textOf rows ++ [nul]).all isspace = true := by simp [isspace, nul]
    have hspace : ∃ j, skipWhile isspace buf
        (i + r.line.text.length + r.lineEnd.text.length) = .ok j := by
      refine exists_skipWhile (s := s) ?_ hnul
      rw [hnext, List.append_assoc, List.singleton_append]
    rcases passes_line he hsec hkey (hrows.lines r (by simp)) hdrop' hspace hat with
      hfound | ⟨c', hreach, hat'⟩
    · exact hfound
    · exact (ih hrows' hrest hnext hp hshown hat').of_reaches hreach

/-- For every well-formed text, section and key: a setting that is present and shown is found,
whatever surrounds it and whatever follows the text in memory. -/
theorem parseFile_finds {rows : List FileRow} (hrows : WellFormedText rows) (hsec : strlenPos sec)
    (hsec' : nul ∉ sec) (hkey : strlenPos key) (hkey' : nul ∉ key)
    (h : Shown sec key (rows.map (·.line))) (s : Text) :
    ∃ spans, parseFile sec key (textOf rows ++ nul :: s) = .ok (some spans) := by
  obtain ⟨pre, l, post, hsplit, hp, hsets, hshown⟩ := h
  have hdrop : (textOf rows ++ nul :: s).drop 0 = textOf rows ++ nul :: s := rfl
  obtain ⟨c, spans, hreach, hmatch⟩ :=
    found_of_at hrows hsec' hkey' hsplit hdrop hsets hp hshown (.outer rfl)
  exact ⟨spans, parseFile_eq_of_reaches hsec hkey hreach hmatch⟩

lemma isspace_iff {x : Char} :
    isspace x = true ↔ x.toNat = 32 ∨ 9 ≤ x.toNat ∧ x.toNat ≤ 13 := by
  have h32 : x = ' ' ↔ x.toNat = 32 := by
    rw [show (32 : ℕ) = ' '.toNat from rfl, Char.toNat_inj]
  simp [isspace, h32]

/-- White space has no case. -/
lemma isspace_of_tolower {x y : Char} (h : tolower x = tolower y) (hx : isspace x = true) :
    isspace y = true := by
  rw [isspace_iff] at hx ⊢
  rw [tolower, tolower] at h
  split at h <;> split at h <;> omega

/-- A key that starts with no white space is shown wherever it is present. -/
lemma shown_of_present {ls : List FileLine} (hwf : ∀ l ∈ ls, l.WellFormed)
    (hkey : ∀ x ∈ key.head?, isspace x = false) (h : Present sec key ls) : Shown sec key ls := by
  obtain ⟨pre, l, post, rfl, hp, hsets⟩ := h
  refine ⟨pre, l, post, rfl, hp, hsets, fun _ x hx => ?_⟩
  cases l with
  | empty | comment | header => exact absurd hsets not_false
  | setting k b a v =>
    have hne := (hwf (.setting k b a v) (by simp)).1
    have hfold : fold k = fold key := hsets
    obtain ⟨y, t, rfl⟩ := List.exists_cons_of_ne_nil hne
    obtain rfl : y = x := by simpa [FileLine.text] using hx
    cases key with
    | nil => simp at hfold
    | cons z key =>
      rw [fold_cons, fold_cons] at hfold
      by_contra hy
      rw [Bool.not_eq_false] at hy
      have hz := isspace_of_tolower (List.cons.inj hfold).1 hy
      exact Bool.false_ne_true ((hkey z rfl).symm.trans hz)

/-- No blanks. -/
def noBlanks : Blanks := ⟨[], List.forall_mem_nil _⟩

/-- A text in which a key that starts with a vertical tab stands right below its header. -/
def tabbedRows : List FileRow :=
  [⟨.header "sip".toList [], .lf⟩,
    ⟨.setting "\x0bid".toList noBlanks noBlanks "1".toList, .lf⟩]

lemma wellFormedText_tabbedRows : WellFormedText tabbedRows := by
  refine ⟨?_, by simp [tabbedRows]⟩
  intro r hr
  simp only [tabbedRows, List.mem_cons, List.not_mem_nil, or_false] at hr
  rcases hr with rfl | rfl
  · exact ⟨by decide, by decide⟩
  · exact ⟨by decide, by decide, by simp [blank], by simp [blank], by decide⟩

/-- The key is present and not found. -/
theorem not_found_tabbedRows :
    WellFormedText tabbedRows ∧
      Present "sip".toList "\x0bid".toList (tabbedRows.map (·.line)) ∧
      parseFile "sip".toList "\x0bid".toList (textOf tabbedRows ++ [nul]) = .ok none := by
  refine ⟨wellFormedText_tabbedRows, ?_, by decide +kernel⟩
  refine ⟨[.header "sip".toList []], .setting "\x0bid".toList noBlanks noBlanks "1".toList, [],
    rfl, ?_, rfl⟩
  decide

/-- A text with either line ending, whose last line is unterminated. -/
def sampleRows : List FileRow :=
  [⟨.comment " the upper service".toList, .crlf⟩, ⟨.header "SIP".toList [], .crlf⟩,
    ⟨.empty, .lf⟩, ⟨.setting "id".toList noBlanks noBlanks "1".toList, .eof⟩]

lemma wellFormedText_sampleRows : WellFormedText sampleRows := by
  refine ⟨?_, by simp [sampleRows]⟩
  intro r hr
  simp only [sampleRows, List.mem_cons, List.not_mem_nil, or_false] at hr
  rcases hr with rfl | rfl | rfl | rfl
  · show ∀ c ∈ " the upper service".toList, Inside c
    decide
  · exact ⟨by decide, by decide⟩
  · exact trivial
  · exact ⟨by decide, by decide, by simp [blank], by simp [blank], by decide⟩

lemma shown_sampleRows : Shown "sip".toList "ID".toList (sampleRows.map (·.line)) := by
  refine shown_of_present (fun l hl => ?_) (by simp [isspace]) ?_
  · obtain ⟨r, hr, rfl⟩ := List.mem_map.1 hl
    exact wellFormedText_sampleRows.lines r hr
  · refine ⟨[.comment " the upper service".toList, .header "SIP".toList [], .empty],
      .setting "id".toList noBlanks noBlanks "1".toList, [], rfl, by decide, ?_⟩
    show fold "id".toList = fold "ID".toList
    decide

/-- A setting below a comment, a header and an empty line. -/
theorem parseFile_finds_sampleRows :
    ∃ spans, parseFile "sip".toList "ID".toList (textOf sampleRows ++ nul :: []) =
      .ok (some spans) :=
  parseFile_finds wellFormedText_sampleRows (by decide) (by decide) (by decide) (by decide)
    shown_sampleRows []

end Conf
