import Mathlib.Data.Nat.Find
import Gb28181.Conf.IniText
import Gb28181.Conf.InString
import Gb28181.Conf.TextLines

/-!
# The line that is reported

What `parse_file` reports, said of the text alone.  It is the first line, below a header that is
entered, whose key begins the requested one; if there is none, and a line or a header of the text
does not end, it may be any line behind the terminator.  So the key of the line is the requested one
(`matchedExactly_iff`) and its header that of the section (`isolated_iff`) only if the headers and
the keys above say so.  The same lines and headers decide whether it reads behind the terminator at
all (`staysInside_iff`).
-/

namespace Conf

open Lib

variable {sec key text : Text} {h i m n : ℕ} {spans : Spans}

/-- The line at `n` is all that `parse_file` asks for: it stands below a header that is entered, and
its key begins the requested one. -/
structure Begun (sec key text : Text) (h n : ℕ) : Prop where
  entered : Entered sec (cstr text) h
  below : LineBelow (cstr text) h n
  begins : BeginsKey key (lineAt (cstr text) n)

/-- The line at `n` has the key, and its header, which is entered, the name of the section. -/
def Own (sec key text : Text) (n : ℕ) : Prop :=
  ∃ h, Begun sec key text h n ∧ Named sec (cstr text) h ∧ HasKey key (lineAt (cstr text) n)

/-- The lines below the headers that are entered end with newlines, and these headers are closed. -/
structure AllEnd (sec text : Text) : Prop where
  lines : ∀ h n, Entered sec (cstr text) h → LineBelow (cstr text) h n →
    ∃ c ∈ (cstr text).drop n, newline c = true
  headers : ∀ h, Entered sec (cstr text) h → read (cstr text) (headerEnd (cstr text) h) = .ok ']'

/-- A line that is reported is in the section and has the key, and no line above it is and has. -/
structure ExactMatch (sec key text : Text) (spans : Spans) : Prop where
  key_eq : fold ((((cstr text).drop spans.keyS).take (spans.keyE + 1 - spans.keyS)).rdropWhile
    blank) = fold key
  own : SectionLine sec (cstr text) spans.keyS ∧ HasKey key (lineAt (cstr text) spans.keyS)
  first : ∀ m < spans.keyS, SectionLine sec (cstr text) m → ¬ HasKey key (lineAt (cstr text) m)

/-- The key is matched exactly, whatever follows the text in memory. -/
def MatchedExactly (sec key text : Text) : Prop :=
  ∀ rest spans, parseFile sec key (text ++ nul :: rest) = .ok (some spans) →
    ExactMatch sec key text spans

/-- A line that is reported is in the requested section, whatever follows the text in memory. -/
def Isolated (sec key text : Text) : Prop :=
  ∀ rest spans, parseFile sec key (text ++ nul :: rest) = .ok (some spans) →
    ∃ h, HeaderOf sec (cstr text) h spans.keyS

lemma notMem_take_cstr (htext : nul ∉ text) : nul ∉ (cstr text).take text.length := by
  rwa [cstr, List.take_left]

lemma LineBelow.lt_length (hbelow : LineBelow (cstr text) h n) : n < text.length := by
  refine Nat.lt_of_not_le fun hle => hbelow.inText ?_
  rw [List.take_of_length_le (by rw [length_cstr]; omega)]
  exact List.mem_append_right _ (List.mem_singleton.2 rfl)

lemma Entered.lt_length (hentered : Entered sec (cstr text) h) : h < text.length := by
  have hlt := lt_length_of_read hentered.headerLine.2
  refine lt_of_headerLine (read_cstr text) ?_ hentered.headerLine
  rw [length_cstr] at hlt
  omega

lemma inText_of_advance {c : Cursor} {l : LineAt} (htext : nul ∉ text)
    (hl : advance sec (cstr text) c = .ok (.line l)) :
    nul ∉ (cstr text).take (l.newlineStart + 1) := by
  have hn := read_cstr text
  have hlt : l.newlineStart < text.length := by
    refine (line_le (fun m d hm hd => ?_) hn hl).1
    have hlen := lt_length_of_read hd
    rw [length_cstr] at hlen
    obtain rfl : m = text.length := by omega
    exact Except.ok.inj (hd.symm.trans hn)
  exact fun hmem => notMem_take_cstr htext ((List.take_prefix_take_left hlt).subset hmem)

/-- The lines that `parse_file` compares with success are those that begin the key. -/
lemma begun_iff (hsec : nul ∉ sec) (htext : nul ∉ text) : (∃ h, Begun sec key text h n) ↔
    ∃ ls c l, Scans sec (cstr text) ls c ∧ advance sec (cstr text) c = .ok (.line l) ∧
      l.newlineStart = n ∧ BeginsKey key (lineText (cstr text) l) := by
  constructor
  · rintro ⟨h, hb⟩
    obtain ⟨ls, c, l, hscan, hl, rfl⟩ := (met_iff (read_cstr text) (notMem_take_cstr htext) hsec
      hb.below.lt_length).2 ⟨h, hb.entered, hb.below⟩
    exact ⟨ls, c, l, hscan, hl, rfl, lineText_eq hl ▸ hb.begins⟩
  · rintro ⟨ls, c, l, hscan, hl, rfl, hbegins⟩
    obtain ⟨g, hg, hbelow⟩ :=
      lineBelow_of_met hsec (inText_of_advance htext hl) ⟨ls, c, l, hscan, hl, rfl⟩
    exact ⟨g, hg, hbelow, lineText_eq hl ▸ hbegins⟩

/-- What `staysInside_iff_scans` says of the scan, said of the text. -/
lemma keyMet_iff (hsec : nul ∉ sec) (htext : nul ∉ text) :
    KeyMet sec key text ↔ ∃ h n, Begun sec key text h n := by
  constructor
  · rintro ⟨ls, c, l, hscan, hl, hbegins⟩
    obtain ⟨h, hb⟩ := (begun_iff hsec htext).2 ⟨ls, c, l, hscan, hl, rfl, hbegins⟩
    exact ⟨h, _, hb⟩
  · rintro ⟨h, n, hb⟩
    obtain ⟨ls, c, l, hscan, hl, -, hbegins⟩ := (begun_iff hsec htext).1 ⟨h, hb⟩
    exact ⟨ls, c, l, hscan, hl, hbegins⟩

lemma ended_iff (hsec : nul ∉ sec) (htext : nul ∉ text) : Ended sec text ↔ AllEnd sec text := by
  have hn := read_cstr text
  have hlast : ∀ {j d}, j < text.length → read (cstr text) j = .ok d → endOfString d = false := by
    intro j d hj hd
    simpa [endOfString] using ne_nul_of_read (notMem_take_cstr htext) hj hd
  constructor
  · intro hended
    refine ⟨fun h n hentered hbelow => ?_, fun h hentered => ?_⟩
    · obtain ⟨ls, c, l, hscan, hl, rfl⟩ := (met_iff hn (notMem_take_cstr htext) hsec
        hbelow.lt_length).2 ⟨h, hentered, hbelow⟩
      obtain ⟨-, hskip⟩ := advance_eq_line hl
      obtain ⟨xs, d, t, hdrop, -, hd, hi⟩ := skipWhile_eq_ok hskip
      have hend := hlast (hended.lines ls c l hscan hl) (hi ▸ read_add_length hdrop)
      refine ⟨d, hdrop ▸ List.mem_append_right _ List.mem_cons_self, ?_⟩
      simpa [hend] using hd
    · obtain ⟨ls, hscan⟩ := exists_scans_header hn (notMem_take_cstr htext) hsec hentered.lt_length
        hentered.headerLine hentered.shown .start (Nat.zero_le h)
      have hlt := hended.headers ls h hscan hentered.headerLine hentered.begins
      obtain ⟨d, hd⟩ := exists_read (hlt.trans (lt_length_of_read hn))
      have hend := hlast hlt hd
      have hclosed := (drop_headerName hd).2
      rw [hend, Bool.not_false, Bool.and_true, Bool.not_eq_false', rightBrace, beq_iff_eq]
        at hclosed
      exact hclosed ▸ hd
  · intro hall
    refine ⟨fun ls c l hscan hl => ?_, fun ls i hscan hheader hbegins => ?_⟩
    · obtain ⟨g, hg, hbelow⟩ :=
        lineBelow_of_met hsec (inText_of_advance htext hl) ⟨ls, c, l, hscan, hl, rfl⟩
      obtain ⟨d, hmem, hd⟩ := hall.lines g _ hg hbelow
      obtain ⟨-, hskip⟩ := advance_eq_line hl
      obtain ⟨xs, e, t, hdrop, hxs, he, hi⟩ := skipWhile_eq_ok hskip
      have hbounds := skipWhile_bounds hskip
      rw [length_cstr] at hbounds
      refine Nat.lt_of_le_of_ne (by omega) fun heq => ?_
      -- the line would end with the terminator
      have hlen := congrArg List.length hdrop
      rw [List.length_drop, length_cstr, List.length_append, List.length_cons] at hlen
      obtain rfl : t = [] := List.length_eq_zero_iff.1 (by omega)
      have hread : read (cstr text) l.i = .ok e := hi ▸ read_add_length hdrop
      rw [heq] at hread
      obtain rfl : e = nul := Except.ok.inj (hread.symm.trans hn)
      rw [hdrop] at hmem
      rcases List.mem_append.1 hmem with hmem | hmem
      · have hin := hxs d hmem
        rw [hd] at hin
        exact Bool.false_ne_true hin
      · rw [List.mem_singleton.1 hmem] at hd
        exact absurd hd (by decide)
    · have hentered : Entered sec (cstr text) i :=
        ⟨hheader, (stands_of_scans hsec hscan).1.shown, hbegins⟩
      have hread := hall.headers i hentered
      have hlt := lt_length_of_read hread
      rw [length_cstr] at hlt
      refine Nat.lt_of_le_of_ne (by omega) fun heq => ?_
      rw [heq] at hread
      exact absurd (Except.ok.inj (hread.symm.trans hn)) (by decide)

/-! ### The end of the string -/

/-- For every text and key: `parse_file` stays in its text if and only if the section is empty, a
line of the section has a key that begins the requested one, or all the lines of the section end
with newlines and all the headers that begin its name are closed.  These are the lines and headers
that the scan meets, or, as the text has no `NUL`, those that stand in it below each other. -/
theorem staysInside_iff (hsec : nul ∉ sec) (hkey : strlenPos key) (hnul : nul ∉ key) :
    (StaysInside sec key text ↔ (strlenPos sec → KeyMet sec key text ∨ Ended sec text)) ∧
      (nul ∉ text → (StaysInside sec key text ↔
        (strlenPos sec → (∃ h n, Begun sec key text h n) ∨ AllEnd sec text))) := by
  have hscans : StaysInside sec key text ↔
      (strlenPos sec → KeyMet sec key text ∨ Ended sec text) :=
    staysInside_iff_scans hsec hkey hnul
  refine ⟨hscans, fun htext => ?_⟩
  rw [hscans, keyMet_iff hsec htext, ended_iff hsec htext]

/-- The text of a section whose last line has no newline. -/
def unendedText : Text := "[sip]\na=1".toList

/-- The search for the key of this line does not get to its end. -/
lemma keyMet_unendedText : KeyMet "sip".toList "a".toList unendedText := by
  have hparse : parseFile "sip".toList "a".toList (cstr unendedText) =
      .ok (some ⟨1, 6, 6, 6, 8, 9⟩) := by
    decide +kernel
  obtain ⟨l, set, hfirst, -⟩ :=
    (parseFile_eq_some_iff_firstMatch (by decide) (by decide) (by decide)).1 hparse
  obtain ⟨ls, c, hscan, hl, -⟩ := hfirst.first
  exact ⟨ls, c, l, hscan, hl, set, hfirst.settingOf_eq, hfirst.prefix_key⟩

theorem staysInside_unendedText : StaysInside "sip".toList "a".toList unendedText :=
  (staysInside_iff (by decide) (by decide) (by decide)).1.2 fun _ => Or.inl keyMet_unendedText

/-- The search for another key goes behind it. -/
theorem not_staysInside_unendedText : ¬ StaysInside "sip".toList "b".toList unendedText := by
  intro h
  have hfault : parseFile "sip".toList "b".toList (cstr unendedText) = .error .outOfBounds := by
    decide +kernel
  exact h.inside hfault

/-! ### What is reported -/

/-- The first line that is all that `parse_file` asks for is reported, whatever follows the text. -/
lemma exists_report (hsec : strlenPos sec) (hsec' : nul ∉ sec) (hkey : strlenPos key)
    (hkey' : nul ∉ key) (htext : nul ∉ text) (hb : ∃ h n, Begun sec key text h n) :
    ∃ h₀ n₀, Begun sec key text h₀ n₀ ∧ (∀ h m, Begun sec key text h m → n₀ ≤ m) ∧
      ∀ rest, ∃ spans, parseFile sec key (text ++ nul :: rest) = .ok (some spans) ∧
        spans.keyS = n₀ ∧ ((cstr text).drop spans.keyS).take (spans.keyE + 1 - spans.keyS) =
          (lineAt (cstr text) n₀).takeWhile (· != '=') := by
  classical
  have hex : ∃ n h, Begun sec key text h n := by
    obtain ⟨h, n, hb⟩ := hb
    exact ⟨n, h, hb⟩
  obtain ⟨h₀, hb₀⟩ := Nat.find_spec hex
  have hmin : ∀ h m, Begun sec key text h m → Nat.find hex ≤ m := fun h m hb =>
    Nat.find_min' hex ⟨h, hb⟩
  obtain ⟨ls, c, l, hscan, hl, hstart, hbegins⟩ := (begun_iff hsec' htext).1 ⟨h₀, hb₀⟩
  obtain ⟨l', hmem, set, hfirst⟩ := exists_firstMatch hscan hl hbegins
  obtain ⟨ls', c', hscan', hl', -⟩ := hfirst.first
  have hstart' : l'.newlineStart = Nat.find hex := by
    obtain ⟨h', hb'⟩ := (begun_iff hsec' htext).2
      ⟨ls', c', l', hscan', hl', rfl, set, hfirst.settingOf_eq, hfirst.prefix_key⟩
    have hge := hmin h' _ hb'
    rcases List.mem_append.1 hmem with hmem | hmem
    · have hlt := newlineStart_lt_of_scans hscan l' hmem
      obtain ⟨rfl, -⟩ := advance_eq_line hl
      have hlt : l'.newlineStart < l.newlineStart := hlt
      omega
    · rw [List.mem_singleton.1 hmem, hstart]
  refine ⟨h₀, _, hb₀, hmin, fun rest => ⟨l'.spans (lineText (cstr text) l') set, ?_, hstart', ?_⟩⟩
  · exact parseFile_extends ⟨rest, by simp [cstr]⟩ _
      ((parseFile_eq_some_iff_firstMatch hsec hkey hkey').2 ⟨l', set, hfirst, rfl⟩)
  · rw [(isLine_of_advance hl').take_drop_key hfirst.settingOf_eq, lineText_eq hl', hstart']

/-- The first line that is asked for is reported, so its header has the name of the section. -/
lemma Isolated.first (hisolated : Isolated sec key text) (hsec : strlenPos sec)
    (hsec' : nul ∉ sec) (hkey : strlenPos key) (hkey' : nul ∉ key) (htext : nul ∉ text)
    (hb : Begun sec key text h n) :
    ∃ h' m, m ≤ n ∧ Begun sec key text h' m ∧ Named sec (cstr text) h' := by
  obtain ⟨h₀, n₀, hb₀, hmin, hall⟩ := exists_report hsec hsec' hkey hkey' htext ⟨h, n, hb⟩
  obtain ⟨spans, hparse, rfl, -⟩ := hall []
  obtain ⟨g, hg⟩ := hisolated [] spans hparse
  obtain rfl := eq_of_headerOf hb₀.entered hb₀.below hg
  exact ⟨g, _, hmin h n hb, hb₀, named_of_headerOf hg⟩

/-- The first line that is asked for is reported, so it is the first one of the section with the
key. -/
lemma MatchedExactly.first (hexact : MatchedExactly sec key text) (hsec : strlenPos sec)
    (hsec' : nul ∉ sec) (hkey : strlenPos key) (hkey' : nul ∉ key) (htext : nul ∉ text)
    (hb : Begun sec key text h n) : ∃ m ≤ n, Own sec key text m ∧
      ∀ m' < m, SectionLine sec (cstr text) m' → ¬ HasKey key (lineAt (cstr text) m') := by
  obtain ⟨h₀, n₀, hb₀, hmin, hall⟩ := exists_report hsec hsec' hkey hkey' htext ⟨h, n, hb⟩
  obtain ⟨spans, hparse, rfl, -⟩ := hall []
  obtain ⟨-, ⟨⟨g, hg, -⟩, hhas⟩, habove⟩ := hexact [] spans hparse
  obtain rfl := eq_of_headerOf hb₀.entered hb₀.below hg
  exact ⟨_, hmin h n hb, ⟨g, hb₀, named_of_headerOf hg, hhas⟩, habove⟩

end Conf
