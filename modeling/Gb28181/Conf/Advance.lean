import Gb28181.Conf.Sections

/-!
# A step of the scan

What `advance` does from a cursor in a text whose terminator is at the index `n`.
-/

namespace Conf

open Lib

variable {sec key buf : Text} {c c' : Cursor} {l : LineAt} {i n : ℕ}

/-- The index `i` of `parse_file`. -/
def Cursor.index : Cursor → ℕ
  | .outer i => i
  | .lines _ _ i => i

/-- The index that is behind a header. -/
def headerEnd (buf : Text) (i : ℕ) : ℕ := i + 1 + (headerName buf (i + 1)).length

lemma exists_read (hi : i < buf.length) : ∃ c, read buf i = .ok c :=
  ⟨buf[i], read_eq_ok.2 (List.getElem?_eq_getElem hi)⟩

lemma exists_atLineStart (hi : i < buf.length) : ∃ b, atLineStart buf i = .ok b := by
  cases i with
  | zero => exact ⟨true, rfl⟩
  | succ i =>
    obtain ⟨c, hc⟩ := exists_read (Nat.lt_of_succ_lt hi)
    exact ⟨newline c, atLineStart_succ hc⟩

lemma advance_headerLine (h : HeaderLine buf i) :
    advance sec buf (.outer i) = enterSection sec buf i := by
  have hend : ¬ endOfString '[' = true := by decide
  simp only [advance, h.1, h.2, ok_bind, if_neg hend]
  rfl

section Terminated

variable (hn : read buf n = .ok nul)

include hn

/-- The name of a header ends at the terminator at the latest. -/
lemma headerEnd_le (hi : i < n) : headerEnd buf i ≤ n ∧
    skipWhile (fun c => !rightBrace c && !endOfString c) buf (i + 1) = .ok (headerEnd buf i) := by
  obtain ⟨j, hj, hjn⟩ := exists_skipWhile_le (p := fun c => !rightBrace c && !endOfString c) hn
    (by decide) hi
  obtain ⟨rfl, -⟩ := headerName_of_skipWhile hj
  exact ⟨hjn, hj⟩

/-- A header whose name begins the section leads behind the blanks that follow it, another one to
its end. -/
lemma enterSection_eq (hsec : nul ∉ sec) (hi : i < n) :
    enterSection sec buf i = if fold (headerName buf (i + 1)) <+: fold sec
      then do
        let e ← skipWhile isspace buf (headerEnd buf i + 1)
        return .goto (.lines (i + 1) e e)
      else .ok (.goto (.outer (headerEnd buf i))) := by
  obtain ⟨-, hj⟩ := headerEnd_le hn hi
  obtain ⟨-, hnul, d, t, hdrop⟩ := headerName_of_skipWhile hj
  obtain ⟨r, hr, hiff⟩ := strncasecmp_left (d :: t) [] hnul hsec
  have hlen : headerEnd buf i - (i + 1) = (headerName buf (i + 1)).length := by
    rw [headerEnd]
    omega
  rw [← hdrop, ← hlen] at hr
  rw [enterSection, hj, ok_bind, cstr, hr, ok_bind]
  simp only [hiff, pure_eq_ok]

lemma lt_of_headerLine (hi : i ≤ n) (h : HeaderLine buf i) : i < n := by
  refine Nat.lt_of_le_of_ne hi ?_
  rintro rfl
  exact absurd (Except.ok.inj (hn.symm.trans h.2)) (by decide)

lemma advance_outer (sec : Text) (hi : i ≤ n) :
    advance sec buf (.outer i) = .ok .stop ∨
      (i < n ∧ HeaderLine buf i ∧ advance sec buf (.outer i) = enterSection sec buf i) ∨
      i < n ∧ ¬ HeaderLine buf i ∧ advance sec buf (.outer i) = .ok (.goto (.outer (i + 1))) := by
  have hlt : i < buf.length := Nat.lt_of_le_of_lt hi (lt_length_of_read hn)
  obtain ⟨c, hc⟩ := exists_read hlt
  obtain ⟨b, hb⟩ := exists_atLineStart hlt
  simp only [advance, hc, hb, ok_bind]
  by_cases hend : endOfString c = true
  · exact Or.inl (by rw [if_pos hend, pure_eq_ok])
  · have hin : i < n := by
      refine Nat.lt_of_le_of_ne hi ?_
      rintro rfl
      obtain rfl : c = nul := Except.ok.inj (hc.symm.trans hn)
      exact hend (by decide)
    rw [if_neg hend]
    by_cases hheader : (b && leftBarce c) = true
    · rw [if_pos hheader]
      rw [Bool.and_eq_true, leftBarce, beq_iff_eq] at hheader
      obtain ⟨rfl, rfl⟩ := hheader
      exact Or.inr (Or.inl ⟨hin, ⟨hb, hc⟩, rfl⟩)
    · rw [if_neg hheader, pure_eq_ok]
      refine Or.inr (Or.inr ⟨hin, ?_, rfl⟩)
      rintro ⟨hstart, hread⟩
      obtain rfl : b = true := Except.ok.inj (hb.symm.trans hstart)
      obtain rfl : c = '[' := Except.ok.inj (hc.symm.trans hread)
      exact hheader (by decide)

lemma advance_lines (sec : Text) (secS secE : ℕ) (hi : i ≤ n) :
    advance sec buf (.lines secS secE i) = .ok (.goto (.outer i)) ∨
      i < n ∧ ∃ l : LineAt, advance sec buf (.lines secS secE i) = .ok (.line l) ∧
        l.newlineStart = i ∧ l.i ≤ n := by
  have hlt : i < buf.length := Nat.lt_of_le_of_lt hi (lt_length_of_read hn)
  obtain ⟨prev, hprev⟩ := exists_read (Nat.lt_of_le_of_lt (Nat.sub_le i 1) hlt)
  obtain ⟨c, hc⟩ := exists_read hlt
  simp only [advance, hprev, hc, ok_bind]
  by_cases hout : (newline prev && leftBarce c || endOfString c) = true
  · exact Or.inl (by rw [if_pos hout, pure_eq_ok])
  · obtain ⟨j, hj, hjn⟩ := exists_skipWhile_le (p := fun c => !newline c && !endOfString c) hn
      (by decide) hi
    have hin : i < n := by
      refine Nat.lt_of_le_of_ne hi ?_
      rintro rfl
      obtain rfl : c = nul := Except.ok.inj (hc.symm.trans hn)
      exact hout (by rw [Bool.or_eq_true]; exact Or.inr (by decide))
    rw [if_neg hout, hj, ok_bind, pure_eq_ok]
    exact Or.inr ⟨hin, _, rfl, rfl, hjn⟩

/-- The scan stays in the text up to a line that it ends with, and gets behind a header as far as
`m`, where it finds another terminator if the header does not end before. -/
lemma advance_bounded {m : ℕ} (hsec : nul ∉ sec) (hm : read buf m = .ok nul) (hnm : n ≤ m)
    (hc : c.index ≤ n) (hclosed : ∀ i, c = .outer i → i < n → HeaderLine buf i →
      fold (headerName buf (i + 1)) <+: fold sec → headerEnd buf i < m) :
    ∃ mv, advance sec buf c = .ok mv ∧ (∀ c', mv = .goto c' → c'.index ≤ m) ∧
      ∀ l, mv = .line l → l.i ≤ n := by
  cases c with
  | outer i =>
    have hc : i ≤ n := hc
    rcases advance_outer hn sec hc with h | ⟨hi, hheader, h⟩ | ⟨hi, -, h⟩
    · exact ⟨_, h, fun c' hc' => absurd hc' (by simp), fun l hl => absurd hl (by simp)⟩
    · obtain ⟨hle, -⟩ := headerEnd_le hn hi
      rw [enterSection_eq hn hsec hi] at h
      split at h
      · -- behind the `]` white space is passed, up to the terminator at `m` at most
        next hpre =>
        have hend : headerEnd buf i + 1 ≤ m := hclosed i rfl hi hheader hpre
        obtain ⟨e, he, hem⟩ := exists_skipWhile_le (p := isspace) hm (by decide) hend
        rw [he, ok_bind, pure_eq_ok] at h
        refine ⟨_, h, fun c' hc' => ?_, fun l hl => absurd hl (by simp)⟩
        obtain rfl := Move.goto.inj hc'
        exact hem
      · refine ⟨_, h, fun c' hc' => ?_, fun l hl => absurd hl (by simp)⟩
        obtain rfl := Move.goto.inj hc'
        exact hle.trans hnm
    · refine ⟨_, h, fun c' hc' => ?_, fun l hl => absurd hl (by simp)⟩
      obtain rfl := Move.goto.inj hc'
      exact Nat.le_trans hi hnm
  | lines s e i =>
    have hc : i ≤ n := hc
    rcases advance_lines hn sec s e hc with h | ⟨-, l, h, -, hl⟩
    · refine ⟨_, h, fun c' hc' => ?_, fun l hl => absurd hl (by simp)⟩
      obtain rfl := Move.goto.inj hc'
      exact hc.trans hnm
    · refine ⟨_, h, fun c' hc' => absurd hc' (by simp), fun l' hl' => ?_⟩
      exact Move.line.inj hl' ▸ hl

end Terminated

/-- An iteration of `parse_file` faults only where the scan does. -/
lemma exists_parseStep {m : Move} (hkey : nul ∉ key) (h : advance sec buf c = .ok m) :
    ∃ r, parseStep sec key buf c = .ok r := by
  cases m with
  | stop => exact ⟨.inr none, by simp [parseStep, h]⟩
  | goto c' => exact ⟨_, parseStep_of_goto h⟩
  | line l =>
    have hline := matchLine_eq hkey (isLine_of_advance h)
    simp only [parseStep, h, ok_bind, hline]
    split <;> exact ⟨_, rfl⟩

end Conf
