import Gb28181.Conf.Spans

/-!
# The lines of a text

Which lines a section has, and which of them `parse_file` meets, said of the text alone.  A line
stands below the last header line above it.  The scan meets it exactly when it enters that header:
when no header further up has its brackets open there, and what stands between the brackets begins
the name of the section (`met_iff`).
-/

namespace Conf

open Lib

variable {sec key buf : Text} {c : Cursor} {l : LineAt} {ls : List LineAt} {h i m n : ℕ}

/-- The header line stands between the brackets of a header further up. -/
def Hidden (buf : Text) (h : ℕ) : Prop :=
  ∃ g, g < h ∧ HeaderLine buf g ∧ h < headerEnd buf g

/-- Where the text below a header starts: white space behind its `]` does not count. -/
def bodyStart (buf : Text) (h : ℕ) : ℕ :=
  headerEnd buf h + 1 + ((buf.drop (headerEnd buf h + 1)).takeWhile isspace).length

/-- The line at `n` stands below the header line at `h`, with no other header line between them. -/
structure LineBelow (buf : Text) (h n : ℕ) : Prop where
  headerLine : HeaderLine buf h
  start : n = bodyStart buf h ∨ bodyStart buf h < n ∧ atLineStart buf n = .ok true
  alone : ∀ p, headerEnd buf h < p → p ≤ n → ¬ HeaderLine buf p
  inText : nul ∉ buf.take (n + 1)

/-- The header is closed on its line and has the name of the section, up to case. -/
structure Named (sec buf : Text) (h : ℕ) : Prop where
  closed : read buf (headerEnd buf h) = .ok ']'
  oneLine : ∀ c ∈ headerName buf (h + 1), newline c = false
  name_eq : fold (headerName buf (h + 1)) = fold sec

/-- The header is not hidden, and what stands between its brackets begins the name of the section,
up to case. -/
structure Entered (sec buf : Text) (h : ℕ) : Prop where
  headerLine : HeaderLine buf h
  shown : ¬ Hidden buf h
  begins : fold (headerName buf (h + 1)) <+: fold sec

/-- A line of the section. -/
def SectionLine (sec buf : Text) (n : ℕ) : Prop := ∃ h, HeaderOf sec buf h n ∧ LineBelow buf h n

/-- The text of the line that starts at `n`. -/
def lineAt (buf : Text) (n : ℕ) : Text :=
  (buf.drop n).takeWhile fun c => !newline c && !endOfString c

/-- The scan meets the line that starts at `n`. -/
def Met (sec buf : Text) (n : ℕ) : Prop :=
  ∃ ls c l, Scans sec buf ls c ∧ advance sec buf c = .ok (.line l) ∧ l.newlineStart = n

/-! ### Where the scan stands -/

lemma eq_add_of_skipWhile {p : Char → Bool} (h : skipWhile p buf i = .ok n) :
    n = i + ((buf.drop i).takeWhile p).length := by
  obtain ⟨xs, d, t, hdrop, hxs, hd, rfl⟩ := skipWhile_eq_ok h
  rw [hdrop, List.takeWhile_append_of_pos hxs,
    List.takeWhile_cons_of_neg (by rw [hd]; exact Bool.false_ne_true), List.append_nil]

/-- What `enterSection` does, at a header of the text. -/
lemma enterSection_cases {mv : Move} (hsec : nul ∉ sec) (h : enterSection sec buf i = .ok mv) :
    (fold (headerName buf (i + 1)) <+: fold sec ∧
      mv = .goto (.lines (i + 1) (bodyStart buf i) (bodyStart buf i))) ∨
    mv = .goto (.outer (headerEnd buf i)) := by
  obtain ⟨k, hk, ⟨e, hr, he, rfl⟩ | rfl⟩ := enterSection_eq_ok h
  · obtain ⟨rfl, hnul, d, t, hdrop⟩ := headerName_of_skipWhile hk
    obtain ⟨r', hr', hiff⟩ := strncasecmp_left (d :: t) [] hnul hsec
    rw [← hdrop] at hr'
    rw [Nat.add_sub_cancel_left] at hr
    have hzero : r' = 0 := Except.ok.inj (hr'.symm.trans hr)
    obtain rfl := eq_add_of_skipWhile he
    exact Or.inl ⟨hiff.1 hzero, rfl⟩
  · obtain ⟨rfl, -, -⟩ := headerName_of_skipWhile hk
    exact Or.inr rfl

/-- No header line further up has its brackets open at the cursor. -/
def Outside (buf : Text) (i : ℕ) : Prop := ∀ g < i, HeaderLine buf g → headerEnd buf g ≤ i

lemma Outside.shown (h : Outside buf i) : ¬ Hidden buf i := by
  rintro ⟨g, hg, hline, hlt⟩
  exact absurd (h g hg hline) (Nat.not_le.2 hlt)

lemma lt_headerEnd (buf : Text) (i : ℕ) : i < headerEnd buf i := by
  rw [headerEnd]
  omega

lemma headerEnd_lt_bodyStart (buf : Text) (i : ℕ) : headerEnd buf i < bodyStart buf i := by
  rw [bodyStart]
  omega

lemma LineBelow.headerEnd_lt (hbelow : LineBelow buf h n) : headerEnd buf h < n := by
  have hbody := headerEnd_lt_bodyStart buf h
  rcases hbelow.start with heq | hlt
  · omega
  · omega

lemma LineBelow.lt (hbelow : LineBelow buf h n) : h < n :=
  (lt_headerEnd buf h).trans hbelow.headerEnd_lt

/-- No header starts where the brackets of another one end. -/
lemma headerEnd_ne {g : ℕ} (hline : HeaderLine buf h) : headerEnd buf g ≠ h := by
  rintro rfl
  have hend := (drop_headerName (hline.2 : read buf (headerEnd buf g) = .ok '[')).2
  exact absurd hend (by decide)

/-- A header that starts between the brackets of another one ends with it. -/
lemma outside_headerEnd (h : Outside buf i) : Outside buf (headerEnd buf i) := by
  intro g hg hline
  rcases Nat.lt_or_ge g i with hlt | hge
  · exact (h g hlt hline).trans (lt_headerEnd buf i).le
  rcases Nat.eq_or_lt_of_le hge with rfl | hlt
  · exact le_rfl
  · have hlen := length_headerName_of_inside (s := i + 1) hlt hg
    rw [headerEnd, headerEnd]
    omega

lemma outside_bodyStart (h : Outside buf i) : Outside buf (bodyStart buf i) := by
  intro g hg hline
  rcases Nat.lt_or_ge g (headerEnd buf i) with hlt | hge
  · have hle := outside_headerEnd h g hlt hline
    rw [bodyStart]
    omega
  · -- neither the end of the header nor white space starts a header
    exfalso
    rw [bodyStart] at hg
    rcases Nat.eq_or_lt_of_le hge with heq | hlt
    · exact headerEnd_ne hline heq
    · obtain ⟨k, rfl⟩ := Nat.exists_eq_add_of_le (Nat.succ_le_of_lt hlt)
      have hk : k < ((buf.drop (headerEnd buf i + 1)).takeWhile isspace).length := by omega
      have hpre := List.takeWhile_prefix isspace (l := buf.drop (headerEnd buf i + 1))
      have hget := hpre.getElem hk
      have hread := read_eq_ok.1 hline.2
      rw [Nat.succ_eq_add_one, ← List.getElem?_drop,
        List.getElem?_eq_getElem (lt_of_lt_of_le hk hpre.length_le), ← hget] at hread
      have hspace : isspace '[' = true :=
        Option.some.inj hread ▸ List.mem_takeWhile_imp (List.getElem_mem hk)
      exact absurd hspace (by decide)

/-- In a section the scan stands at the start of the text below its header, or behind the end of a
line. -/
structure StandsIn (sec buf : Text) (secS i : ℕ) : Prop where
  header : ∃ g, secS = g + 1 ∧ Entered sec buf g ∧ (i = bodyStart buf g ∨
    bodyStart buf g < i ∧ ∃ d, read buf (i - 1) = .ok d ∧ (newline d || endOfString d) = true)

/-- After a line there is no header before the scan, either. -/
lemma outside_line (hsec : nul ∉ sec) (hscan : Scans sec buf ls c)
    (hl : advance sec buf c = .ok (.line l)) (hout : Outside buf c.index) :
    Outside buf (l.i + 1) := by
  obtain ⟨rfl, hskip⟩ := advance_eq_line hl
  have hbounds := skipWhile_bounds hskip
  have hout : Outside buf l.newlineStart := hout
  have hu := under_of_line (under_of_scans hsec hscan _ _ _ rfl) hl
  have hafter := (under_of_scans hsec hscan _ _ _ rfl).after
  intro p hp hline
  rcases Nat.lt_or_ge p l.newlineStart with hlt | hge
  · have hle := hout p hlt hline
    omega
  · exact absurd hline (hu.alone p (by omega) hp)

/-- After a line the scan stands at the beginning of the next one, below the same header. -/
lemma standsIn_line (hl : advance sec buf c = .ok (.line l))
    (hinside : ∀ secS secE i, c = .lines secS secE i → StandsIn sec buf secS i) :
    StandsIn sec buf l.secS (l.i + 1) := by
  obtain ⟨rfl, hskip⟩ := advance_eq_line hl
  have hbounds := skipWhile_bounds hskip
  obtain ⟨g, hg, hentered, hstart⟩ := (hinside _ _ _ rfl).header
  obtain ⟨d, hd, hend⟩ : ∃ d, read buf l.i = .ok d ∧ (newline d || endOfString d) = true := by
    obtain ⟨xs, d, t, hdrop, -, hd, hi⟩ := skipWhile_eq_ok hskip
    refine ⟨d, hi ▸ read_add_length hdrop, ?_⟩
    simpa [← Bool.not_or] using hd
  refine ⟨g, hg, hentered, Or.inr ⟨?_, d, hd, hend⟩⟩
  rcases hstart with heq | hlt
  · omega
  · omega

/-- Wherever the scan stands, no header is open, and in a section it stands at the start of a
line. -/
lemma stands_of_scans (hsec : nul ∉ sec) (hscan : Scans sec buf ls c) :
    Outside buf c.index ∧ ∀ secS secE i, c = .lines secS secE i → StandsIn sec buf secS i := by
  induction hscan with
  | start => exact ⟨fun g hg => absurd hg (Nat.not_lt_zero g), by simp⟩
  | @goto ls c c' _ hgoto ih =>
    obtain ⟨hout, hinside⟩ := ih
    cases advances_of_eq_ok hgoto with
    | @header i _ hstart hread henter =>
      have hline : HeaderLine buf i := ⟨hstart, hread⟩
      have hout : Outside buf i := hout
      rcases enterSection_cases hsec henter with ⟨hbegins, hmv⟩ | hmv
      · obtain rfl := Move.goto.inj hmv
        refine ⟨outside_bodyStart hout, fun secS secE j hj => ?_⟩
        obtain ⟨rfl, -, rfl⟩ := Cursor.lines.inj hj
        exact ⟨i, rfl, ⟨hline, hout.shown, hbegins⟩, Or.inl rfl⟩
      · obtain rfl := Move.goto.inj hmv
        exact ⟨outside_headerEnd hout, by simp⟩
    | @next i hi =>
      refine ⟨fun g hg hline => ?_, by simp⟩
      have hout : Outside buf i := hout
      rcases Nat.lt_or_ge g i with hlt | hge
      · exact Nat.le_succ_of_le (hout g hlt hline)
      · -- a header at `i` would have been compared
        obtain rfl : g = i := Nat.le_antisymm (Nat.le_of_lt_succ hg) hge
        rw [advance_headerLine hline] at hgoto
        rcases enterSection_cases hsec hgoto with ⟨-, hmv⟩ | hmv
        · exact Cursor.noConfusion (Move.goto.inj hmv)
        · exact (Cursor.outer.inj (Move.goto.inj hmv)).symm.le
    | leave secS secE hi => exact ⟨hout, by simp⟩
  | @line ls c l hscan hl ih =>
    refine ⟨outside_line hsec hscan hl ih.1, fun secS secE j hj => ?_⟩
    obtain ⟨rfl, -, rfl⟩ := Cursor.lines.inj hj
    exact standsIn_line hl ih.2

/-- A line that is met in the text stands below a header that was entered. -/
lemma lineBelow_of_met (hsec : nul ∉ sec) (htext : nul ∉ buf.take (m + 1))
    (h : Met sec buf m) : ∃ g, Entered sec buf g ∧ LineBelow buf g m := by
  obtain ⟨ls, c, l, hscan, hl, rfl⟩ := h
  obtain ⟨rfl, -⟩ := advance_eq_line hl
  have hu := under_of_scans hsec hscan _ _ _ rfl
  obtain ⟨g, hg, hentered, hstart⟩ := ((stands_of_scans hsec hscan).2 _ _ _ rfl).header
  have hafter := hu.after
  refine ⟨g, hentered, hentered.headerLine, ?_, fun p hp hpm => ?_, htext⟩
  · rcases hstart with heq | ⟨hlt, d, hd, hend⟩
    · exact Or.inl heq
    · refine Or.inr ⟨hlt, ?_⟩
      obtain ⟨k, hk⟩ := Nat.exists_eq_succ_of_ne_zero (by omega : l.newlineStart ≠ 0)
      have hne : d ≠ nul := ne_nul_of_read htext (by omega) hd
      rw [hk, Nat.succ_sub_one] at hd
      rw [hk, Nat.succ_eq_add_one, atLineStart_succ hd]
      simp only [endOfString, beq_eq_false_iff_ne.2 hne, Bool.or_false] at hend
      rw [hend]
  · have hend : headerEnd buf g = l.secS + (headerName buf l.secS).length := by
      rw [headerEnd, hg]
    rcases Nat.eq_or_lt_of_le hpm with rfl | hlt
    · exact not_headerLine_of_line (by omega) hl
    · exact hu.alone p (by omega) hlt

/-! ### What the scan meets -/

lemma index_le_of_goto {c' : Cursor} (h : advance sec buf c = .ok (.goto c')) :
    c.index ≤ c'.index := by
  cases advances_of_eq_ok h with
  | header hstart hread henter =>
    obtain ⟨j, hj, ⟨e, -, he, hm⟩ | hm⟩ := enterSection_eq_ok henter
    all_goals
      have hij := skipWhile_bounds hj
      obtain rfl := Move.goto.inj hm
      simp only [Cursor.index]
    · have hje := skipWhile_bounds he
      omega
    · omega
  | next hi => exact Nat.le_succ _
  | leave secS secE hi => exact Nat.le_refl _

/-- The lines that were met stand above the cursor. -/
lemma newlineStart_lt_of_scans (hscan : Scans sec buf ls c) :
    ∀ l ∈ ls, l.newlineStart < c.index := by
  induction hscan with
  | start => simp
  | @goto ls c c' _ hgoto ih =>
    exact fun l hl => Nat.lt_of_lt_of_le (ih l hl) (index_le_of_goto hgoto)
  | @line ls c l _ hl ih =>
    intro l' hl'
    obtain ⟨rfl, hskip⟩ := advance_eq_line hl
    have hbounds := skipWhile_bounds hskip
    rcases List.mem_append.1 hl' with hmem | hmem
    · have hlt : l'.newlineStart < l.newlineStart := ih l' hmem
      show l'.newlineStart < l.i + 1
      omega
    · rw [List.mem_singleton.1 hmem]
      show l.newlineStart < l.i + 1
      omega

/-- The line that is met ends before the next line starts. -/
lemma lt_of_atLineStart (hl : advance sec buf c = .ok (.line l)) (hlt : l.newlineStart < m)
    (hm : atLineStart buf m = .ok true) : l.i + 1 ≤ m := by
  obtain ⟨-, hskip⟩ := advance_eq_line hl
  obtain ⟨k, rfl⟩ := Nat.exists_eq_succ_of_ne_zero (by omega : m ≠ 0)
  by_contra hgt
  obtain ⟨d, hd, hinside⟩ := read_of_skipWhile hskip (k := k) (by omega) (by omega)
  rw [Nat.succ_eq_add_one, atLineStart_succ hd, Except.ok.injEq] at hm
  rw [hm, Bool.not_true, Bool.false_and] at hinside
  exact Bool.false_ne_true hinside

section Terminated

variable (hn : read buf n = .ok nul) (htext : nul ∉ buf.take n)

include hn htext

/-- The loop over the sections goes on as long as the text does. -/
lemma advance_outer_ne_stop (hi : i < n) : advance sec buf (.outer i) ≠ .ok .stop := by
  intro h
  obtain ⟨d, hd⟩ := exists_read (Nat.lt_trans hi (lt_length_of_read hn))
  have hend : ¬ endOfString d = true := by
    simpa [endOfString] using ne_nul_of_read htext hi hd
  rcases advance_outer hn sec hi.le with - | ⟨-, -, h'⟩ | ⟨-, -, h'⟩
  · simp only [advance, hd, ok_bind, if_neg hend, bind_eq_ok] at h
    obtain ⟨b, -, h⟩ := h
    split at h
    · obtain ⟨j, -, ⟨e, -, -, hm⟩ | hm⟩ := enterSection_eq_ok h <;> exact Move.noConfusion hm
    · exact Move.noConfusion (Except.ok.inj h)
  · obtain ⟨j, -, ⟨e, -, -, hm⟩ | hm⟩ := enterSection_eq_ok (h'.symm.trans h) <;>
      exact Move.noConfusion hm
  · exact Move.noConfusion (Except.ok.inj (h'.symm.trans h))

/-- The scan comes to every header that is not hidden. -/
lemma exists_scans_header (hsec : nul ∉ sec) (hlt : h < n) (hline : HeaderLine buf h)
    (hshown : ¬ Hidden buf h) (hscan : Scans sec buf ls c) (hc : c.index ≤ h) :
    ∃ ls', Scans sec buf ls' (.outer h) := by
  induction hk : c.toGo buf.length using Nat.strong_induction_on generalizing ls c with
  | _ k ih =>
    subst hk
    have hgoto : ∀ c', advance sec buf c = .ok (.goto c') → c'.index ≤ h →
        ∃ ls', Scans sec buf ls' (.outer h) := fun c' hadv hc' =>
      ih _ (toGo_advance_goto hadv) (hscan.goto hadv) hc' rfl
    cases c with
    | outer i =>
      have hc : i ≤ h := hc
      rcases Nat.eq_or_lt_of_le hc with rfl | hi
      · exact ⟨ls, hscan⟩
      rcases advance_outer hn sec (hc.trans hlt.le) with hadv | ⟨hin, hheader, hadv⟩ | ⟨-, -, hadv⟩
      · exact absurd hadv (advance_outer_ne_stop hn htext (hi.trans hlt))
      · -- the brackets close before the header
        have hend : headerEnd buf i < h := Nat.lt_of_le_of_ne
          (Nat.le_of_not_lt fun h' => hshown ⟨i, hi, hheader, h'⟩) (headerEnd_ne hline)
        obtain ⟨e, he, heh⟩ : ∃ e, skipWhile isspace buf (headerEnd buf i + 1) = .ok e ∧ e ≤ h :=
          exists_skipWhile_le hline.2 (by decide) hend
        rw [enterSection_eq hn hsec hin] at hadv
        split at hadv
        · rw [he, ok_bind] at hadv
          exact hgoto _ hadv heh
        · exact hgoto _ hadv hend.le
      · exact hgoto _ hadv hi
    | lines secS secE i =>
      have hc : i ≤ h := hc
      rcases advance_lines hn sec secS secE (hc.trans hlt.le) with hadv | ⟨-, l, hadv, hstart, -⟩
      · exact hgoto _ hadv hc
      · have hpos := ((section_of_scans hscan) secS secE i rfl)
        rcases Nat.eq_or_lt_of_le hc with rfl | hi
        · exact absurd hline (not_headerLine_of_line (by omega) hadv)
        · have hle := lt_of_atLineStart hadv (hstart ▸ hi) hline.1
          refine ih _ ?_ (hscan.line hadv) hle rfl
          obtain ⟨-, hskip⟩ := advance_eq_line hadv
          have hbounds := skipWhile_bounds hskip
          simp only [Cursor.toGo]
          omega

/-- The loop over the lines ends at a header line or with the text. -/
lemma exists_line (secS secE : ℕ) (hi : 0 < i) (hin : i < n) (hno : ¬ HeaderLine buf i) :
    ∃ l : LineAt, advance sec buf (.lines secS secE i) = .ok (.line l) ∧ l.newlineStart = i := by
  rcases advance_lines hn sec secS secE hin.le with hadv | ⟨-, l, hadv, hl, -⟩
  · exfalso
    obtain ⟨d, hd⟩ := exists_read (hin.trans (lt_length_of_read hn))
    obtain ⟨k, rfl⟩ := Nat.exists_eq_succ_of_ne_zero hi.ne'
    obtain ⟨e, he⟩ := exists_read (Nat.lt_of_succ_lt (lt_length_of_read hd))
    have hend : endOfString d = false := by
      simpa [endOfString] using ne_nul_of_read htext hin hd
    simp only [advance, Nat.succ_eq_add_one, Nat.add_sub_cancel, he, hd, ok_bind] at hadv
    split at hadv
    · next hout =>
      rw [hend, Bool.or_false, Bool.and_eq_true, leftBarce, beq_iff_eq] at hout
      obtain ⟨hnl, rfl⟩ := hout
      exact hno ⟨by rw [Nat.succ_eq_add_one, atLineStart_succ he, hnl], hd⟩
    · obtain ⟨j, -, hadv⟩ := bind_eq_ok.1 hadv
      exact Move.noConfusion (Except.ok.inj hadv)
  · exact ⟨l, hadv, hl⟩

/-- In a section the scan comes to every line that follows. -/
lemma exists_scans_line {secS secE : ℕ} (hm : m < n) (hstart : atLineStart buf m = .ok true)
    (halone : ∀ p, i ≤ p → p ≤ m → ¬ HeaderLine buf p) (hi : 0 < i) (him : i ≤ m)
    (hscan : Scans sec buf ls (.lines secS secE i)) :
    ∃ ls', Scans sec buf ls' (.lines secS secE m) := by
  induction hk : m - i using Nat.strong_induction_on generalizing ls i with
  | _ k ih =>
    subst hk
    rcases Nat.eq_or_lt_of_le him with rfl | hlt
    · exact ⟨ls, hscan⟩
    obtain ⟨l, hadv, hl⟩ := exists_line hn htext secS secE hi (hlt.trans hm)
      (halone i le_rfl him)
    have hle := lt_of_atLineStart hadv (hl ▸ hlt) hstart
    obtain ⟨hcur, hskip⟩ := advance_eq_line hadv
    have hbounds := skipWhile_bounds hskip
    obtain ⟨rfl, rfl, -⟩ := Cursor.lines.inj hcur
    exact ih _ (by omega) (fun p hp => halone p (by omega)) (by omega) hle (hscan.line hadv) rfl

/-- For every text and section: the lines that the scan meets are those below the headers that it
enters. -/
theorem met_iff (hsec : nul ∉ sec) (hm : m < n) :
    Met sec buf m ↔ ∃ g, Entered sec buf g ∧ LineBelow buf g m := by
  have hinText : nul ∉ buf.take (m + 1) := fun hmem =>
    htext ((List.take_prefix_take_left hm).subset hmem)
  refine ⟨lineBelow_of_met hsec hinText, ?_⟩
  rintro ⟨g, hg, hbelow⟩
  have hbody : bodyStart buf g ≤ m := by
    rcases hbelow.start with heq | hlt
    · exact heq.symm.le
    · exact hlt.1.le
  have hend := lt_headerEnd buf g
  have hle := headerEnd_lt_bodyStart buf g
  obtain ⟨ls, hscan⟩ := exists_scans_header hn htext hsec (by omega) hg.headerLine hg.shown .start
    (Nat.zero_le g)
  obtain ⟨e, he, -⟩ : ∃ e, skipWhile isspace buf (headerEnd buf g + 1) = .ok e ∧ e ≤ n :=
    exists_skipWhile_le hn (by decide) (by omega)
  have hadv : advance sec buf (.outer g) =
      .ok (.goto (.lines (g + 1) (bodyStart buf g) (bodyStart buf g))) := by
    rw [advance_headerLine hg.headerLine, enterSection_eq hn hsec (by omega), if_pos hg.begins, he,
      ok_bind, eq_add_of_skipWhile he]
    rfl
  have halone : ∀ p, bodyStart buf g ≤ p → p ≤ m → ¬ HeaderLine buf p := fun p hp =>
    hbelow.alone p (by omega)
  obtain ⟨ls', hscan'⟩ : ∃ ls', Scans sec buf ls' (.lines (g + 1) (bodyStart buf g) m) := by
    rcases hbelow.start with rfl | ⟨-, hstart⟩
    · exact ⟨ls, hscan.goto hadv⟩
    · exact exists_scans_line hn htext hm hstart halone (by omega) hbody (hscan.goto hadv)
  obtain ⟨l, hl, hstart⟩ := exists_line hn htext (g + 1) (bodyStart buf g) (by omega) hm
    (hbelow.alone m (by omega) le_rfl)
  exact ⟨ls', _, l, hscan', hl, hstart⟩

end Terminated

/-! ### The header of a line -/

lemma named_of_headerOf (hh : HeaderOf sec buf h n) : Named sec buf h := by
  obtain ⟨hfold, hone, hclosed, -⟩ := headerName_of_headerOf hh
  exact ⟨hclosed, hone, hfold⟩

/-- The header of a line that is below a header that is entered is that one. -/
lemma eq_of_headerOf {g : ℕ} (hg : Entered sec buf g) (hbelow : LineBelow buf g n)
    (hh : HeaderOf sec buf h n) : h = g := by
  obtain ⟨hfold, -, -, hle⟩ := headerName_of_headerOf hh
  rcases Nat.lt_trichotomy h g with hlt | heq | hgt
  · -- the entered header would stand below the other one
    exact absurd hg.headerLine (hh.alone g hlt hbelow.lt.le)
  · exact heq
  · -- it would stand between the brackets of the entered one, which are too long then
    exfalso
    have hinside : h < headerEnd buf g := by
      refine Nat.lt_of_not_le fun hge => ?_
      have hlt := Nat.lt_of_le_of_ne hge (headerEnd_ne hh.headerLine)
      exact hbelow.alone h hlt (by omega) hh.headerLine
    have hlen := length_headerName_of_inside (s := g + 1) hgt hinside
    have hsame := length_eq_of_fold hfold
    have hprefix := hg.begins.length_le
    rw [length_fold, length_fold] at hprefix
    omega

/-- The text of a line that is met. -/
lemma lineText_eq (hl : advance sec buf c = .ok (.line l)) :
    lineText buf l = lineAt buf l.newlineStart := by
  obtain ⟨-, hskip⟩ := advance_eq_line hl
  rw [lineText, lineAt, eq_add_of_skipWhile hskip, Nat.add_sub_cancel_left]
  exact (List.prefix_iff_eq_take.1 (List.takeWhile_prefix _)).symm

end Conf
