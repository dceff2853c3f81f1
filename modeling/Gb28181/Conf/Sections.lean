import Gb28181.Conf.IniText
import Gb28181.Conf.Keys

/-!
# The section that a line is in

Under which header the scan of `parse_file` stands.  The comparison of a header is as long as its
name, which goes up to the next `]` or to the terminator of the text, so an empty header, one that
begins the requested name and one that is not closed are taken for the section.
-/

namespace Conf

open Lib

variable {sec key buf : Text} {c : Cursor} {l : LineAt} {ls : List LineAt} {i s n : ℕ}

/-- A line that starts with `[` starts at `p`. -/
def HeaderLine (buf : Text) (p : ℕ) : Prop :=
  atLineStart buf p = .ok true ∧ read buf p = .ok '['

/-- The line at `n` is in the section that the header at `h` opens: the header is closed on its
line, has the name of the section, up to case, and is the last one above the line. -/
structure HeaderOf (sec buf : Text) (h n : ℕ) : Prop where
  headerLine : HeaderLine buf h
  named : ∃ (name : Text) (rest : Text), buf.drop (h + 1) = name ++ ']' :: rest ∧
    (∀ c ∈ name, newline c = false ∧ c ≠ ']') ∧ fold name = fold sec ∧ h + name.length + 2 ≤ n
  alone : ∀ p, h < p → p ≤ n → ¬ HeaderLine buf p
  inText : nul ∉ buf.take n

/-- What stands from `start` on up to a `]` or the end of the text. -/
def headerName (buf : Text) (start : ℕ) : Text :=
  (buf.drop start).takeWhile fun c => !rightBrace c && !endOfString c

/-! ### The header of a cursor -/

/-- The header before `secS` begins the section, and no other header stands between its end and
`i`. -/
structure Under (sec buf : Text) (secS i : ℕ) : Prop where
  headerLine : ∃ g, secS = g + 1 ∧ HeaderLine buf g
  prefix_sec : fold (headerName buf secS) <+: fold sec
  after : secS + (headerName buf secS).length < i
  alone : ∀ p, secS + (headerName buf secS).length < p → p < i → ¬ HeaderLine buf p

lemma not_headerLine_of_read {d : Char} {p : ℕ} (hd : read buf p = .ok d) (hne : d ≠ '[') :
    ¬ HeaderLine buf p := by
  rintro ⟨-, hread⟩
  exact hne (Except.ok.inj (hd.symm.trans hread))

lemma not_headerLine_succ {d : Char} {p : ℕ} (hd : read buf p = .ok d) (hno : newline d = false) :
    ¬ HeaderLine buf (p + 1) := by
  rintro ⟨hstart, -⟩
  rw [atLineStart_succ hd, hno] at hstart
  exact Bool.false_ne_true (Except.ok.inj hstart)

lemma headerName_of_skipWhile
    (h : skipWhile (fun c => !rightBrace c && !endOfString c) buf s = .ok i) :
    i = s + (headerName buf s).length ∧ nul ∉ headerName buf s ∧
      ∃ c t, buf.drop s = headerName buf s ++ c :: t := by
  obtain ⟨xs, c, t, hdrop, hxs, hc, rfl⟩ := skipWhile_eq_ok h
  have hname : headerName buf s = xs := by
    rw [headerName, hdrop, List.takeWhile_append_of_pos hxs,
      List.takeWhile_cons_of_neg (by rw [hc]; exact Bool.false_ne_true), List.append_nil]
  rw [hname]
  refine ⟨rfl, fun hmem => ?_, c, t, hdrop⟩
  exact absurd (hxs nul hmem) (by decide)

lemma under_of_enterSection {e j : ℕ} (hsec : nul ∉ sec) (hi : HeaderLine buf i)
    (h : enterSection sec buf i = .ok (.goto (.lines s e j))) : Under sec buf s j := by
  obtain ⟨k, hk, ⟨m, hr, hm, hgoto⟩ | hgoto⟩ := enterSection_eq_ok h
  · obtain ⟨rfl, -, rfl⟩ := Cursor.lines.inj (Move.goto.inj hgoto)
    obtain ⟨rfl, hnul, d, t, hdrop⟩ := headerName_of_skipWhile hk
    obtain ⟨r', hr', hiff⟩ := strncasecmp_left (d :: t) [] hnul hsec
    rw [← hdrop] at hr'
    rw [Nat.add_sub_cancel_left] at hr
    have hzero : r' = 0 := Except.ok.inj (hr'.symm.trans hr)
    refine ⟨⟨i, rfl, hi⟩, hiff.1 hzero, ?_, ?_⟩
    · have := skipWhile_bounds hm
      omega
    · intro p hp hpm
      obtain ⟨x, hx, hspace⟩ := read_of_skipWhile hm (k := p) (by omega) hpm
      refine not_headerLine_of_read hx ?_
      rintro rfl
      exact absurd hspace (by decide)
  · exact Cursor.noConfusion (Move.goto.inj hgoto)

lemma not_headerLine_of_line {secS secE : ℕ} (hi : 0 < i)
    (h : advance sec buf (.lines secS secE i) = .ok (.line l)) : ¬ HeaderLine buf i := by
  obtain ⟨k, rfl⟩ := Nat.exists_eq_succ_of_ne_zero hi.ne'
  rintro ⟨hstart, hread⟩
  cases advances_of_eq_ok h with
  | @line _ _ _ _ prev c hprev hc hno =>
    obtain rfl : c = '[' := Except.ok.inj (hc.symm.trans hread)
    rw [Nat.succ_eq_add_one, Nat.add_sub_cancel] at hprev
    rw [Nat.succ_eq_add_one, atLineStart_succ hprev] at hstart
    rw [Except.ok.inj hstart] at hno
    exact absurd hno (by simp [leftBarce])

/-- A line does not change under which header the scan stands. -/
lemma under_of_line {secS secE : ℕ} (hu : Under sec buf secS i)
    (h : advance sec buf (.lines secS secE i) = .ok (.line l)) : Under sec buf secS (l.i + 1) := by
  obtain ⟨hcur, hskip⟩ := advance_eq_line h
  obtain ⟨-, -, rfl⟩ := Cursor.lines.inj hcur
  have hbounds := skipWhile_bounds hskip
  have hafter := hu.after
  refine ⟨hu.headerLine, hu.prefix_sec, by omega, fun p hp hpi => ?_⟩
  rcases Nat.lt_trichotomy p l.newlineStart with hlt | rfl | hgt
  · exact hu.alone p hp hlt
  · exact not_headerLine_of_line (by omega) h
  · obtain ⟨k, rfl⟩ := Nat.exists_eq_succ_of_ne_zero (by omega : p ≠ 0)
    obtain ⟨x, hx, hinside⟩ := read_of_skipWhile hskip (k := k) (by omega) (by omega)
    refine not_headerLine_succ hx ?_
    rw [Bool.and_eq_true, Bool.not_eq_true'] at hinside
    exact hinside.1

/-- Wherever the scan stands in a section, it stands under a header. -/
lemma under_of_scans (hsec : nul ∉ sec) (h : Scans sec buf ls c) :
    ∀ secS secE i, c = .lines secS secE i → Under sec buf secS i := by
  induction h with
  | start => intro secS secE i hc; exact Cursor.noConfusion hc
  | @goto ls c c' _ hgoto ih =>
    rintro secS secE i rfl
    cases advances_of_eq_ok hgoto with
    | header hstart hread henter => exact under_of_enterSection hsec ⟨hstart, hread⟩ henter
  | @line ls c l _ hl ih =>
    intro secS secE i hc
    obtain ⟨rfl, -, rfl⟩ := Cursor.lines.inj hc
    obtain ⟨rfl, -⟩ := advance_eq_line hl
    exact under_of_line (ih _ _ _ rfl) hl

/-! ### The header of a line -/

lemma ne_nul_of_read {d : Char} {p : ℕ} (h : nul ∉ buf.take n) (hp : p < n)
    (hd : read buf p = .ok d) : d ≠ nul := by
  rintro rfl
  refine h (List.mem_of_getElem? (i := p) ?_)
  rw [List.getElem?_take_of_lt hp]
  exact read_eq_ok.1 hd

lemma drop_takeWhile {α : Type*} (p : α → Bool) {xs : List α} {k : ℕ}
    (hk : k ≤ (xs.takeWhile p).length) : (xs.takeWhile p).drop k = (xs.drop k).takeWhile p := by
  induction xs generalizing k with
  | nil => simp
  | cons x xs ih =>
    cases k with
    | zero => rfl
    | succ k =>
      by_cases hx : p x = true
      · rw [List.takeWhile_cons_of_pos hx] at hk ⊢
        exact ih (Nat.le_of_succ_le_succ hk)
      · rw [List.takeWhile_cons_of_neg hx] at hk
        exact absurd hk (Nat.not_succ_le_zero k)

/-- A name that contains the `[` of another header goes on to the end of that header. -/
lemma length_headerName_of_inside {h : ℕ} (hs : s ≤ h) (hlt : h < s + (headerName buf s).length) :
    (headerName buf s).length = h + 1 - s + (headerName buf (h + 1)).length := by
  have hk : h + 1 - s ≤ (headerName buf s).length := by omega
  have hdrop : (headerName buf s).drop (h + 1 - s) = headerName buf (h + 1) := by
    have hadd : s + (h + 1 - s) = h + 1 := by omega
    rw [headerName, drop_takeWhile _ hk, List.drop_drop, hadd, headerName]
  rw [← hdrop, List.length_drop]
  omega

/-- A name ends with a `]` or with the text. -/
lemma drop_headerName {d : Char} (hd : read buf (s + (headerName buf s).length) = .ok d) :
    (∃ rest, buf.drop s = headerName buf s ++ d :: rest) ∧
      (!rightBrace d && !endOfString d) = false := by
  have hsplit : buf.drop s = headerName buf s ++ (buf.drop s).dropWhile
      fun c => !rightBrace c && !endOfString c := List.takeWhile_append_dropWhile.symm
  have hhead : ((buf.drop s).dropWhile fun c => !rightBrace c && !endOfString c).head? =
      some d := by
    rw [read_eq_ok, ← List.getElem?_drop, hsplit, List.getElem?_append_right le_rfl,
      Nat.sub_self, ← List.head?_eq_getElem?] at hd
    exact hd
  have hnot := List.head?_dropWhile_not (fun c => !rightBrace c && !endOfString c) (buf.drop s)
  rw [hhead] at hnot
  obtain ⟨rest, hrest⟩ := List.head?_eq_some_iff.1 hhead
  exact ⟨⟨rest, hrest ▸ hsplit⟩, hnot⟩

/-- A header that has the name of the section has no more in its brackets. -/
lemma headerName_of_headerOf {h : ℕ} (hh : HeaderOf sec buf h n) :
    fold (headerName buf (h + 1)) = fold sec ∧
      (∀ c ∈ headerName buf (h + 1), newline c = false) ∧
      read buf (h + 1 + (headerName buf (h + 1)).length) = .ok ']' ∧
      h + (headerName buf (h + 1)).length + 2 ≤ n := by
  obtain ⟨name, rest, hdrop, hname, hfold, hle⟩ := hh.named
  have hall : ∀ c ∈ name, (!rightBrace c && !endOfString c) = true := by
    intro c hc
    obtain ⟨k, hk, rfl⟩ := List.getElem_of_mem hc
    have hread : read buf (h + 1 + k) = .ok name[k] := by
      rw [read_eq_ok, ← List.getElem?_drop, hdrop, List.getElem?_append_left hk,
        List.getElem?_eq_getElem hk]
    have hnul := ne_nul_of_read hh.inText (by omega) hread
    simp [rightBrace, endOfString, (hname _ hc).2, hnul]
  have heq : headerName buf (h + 1) = name := by
    rw [headerName, hdrop, List.takeWhile_append_of_pos hall,
      List.takeWhile_cons_of_neg (by decide), List.append_nil]
  rw [heq]
  exact ⟨hfold, fun c hc => (hname c hc).1, read_add_length hdrop, hle⟩

end Conf
