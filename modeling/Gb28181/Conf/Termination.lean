import Gb28181.Conf.Advance

/-!
# `parse_file` ends

With two terminators behind its text `parse_file` comes to an end, whatever the text is: its index
increases with each iteration of its loops, and gets to the second terminator at most.
-/

namespace Conf

open Lib

variable {sec key buf text rest : Text} {c c' : Cursor} {l : LineAt} {i i' n : ℕ}

/-- A text with two terminators, and whatever follows them. -/
def twiceEnded (text rest : Text) : Text := text ++ nul :: nul :: rest

/-- `parse_file` ends. -/
structure Terminates (sec key buf : Text) (n : ℕ) : Prop where
  /-- It returns, with the iterations that it has and with any more; or its assertion fails. -/
  halts : (strlenPos sec = false ∧ parseFile sec key buf = .error .assertFailed) ∨
    ∃ r, parseFile sec key buf = .ok r ∧ ∀ fuel, 2 * buf.length + 2 ≤ fuel →
      Loop.run (parseStep sec key buf) fuel (.outer 0) = .ok (some r)
  /-- From one iteration of the outer loop to a later one the index increases. -/
  outer : ∀ i i', Relation.TransGen (Loop.Goes (parseStep sec key buf)) (.outer i) (.outer i') →
    i < i'
  /-- So it does from one line of a section to the next one. -/
  lines : ∀ secS secE i secS' secE' i',
    Loop.Goes (parseStep sec key buf) (.lines secS secE i) (.lines secS' secE' i') → i < i'
  /-- The loop over the characters of a line ends with the iterations that it has. -/
  keyLoop : ∀ l fuel j valid, l.i - j < fuel →
    keyLoop key buf l fuel j valid = keyLoop key buf l (l.i - j + 1) j valid
  /-- The index does not get behind the second terminator. -/
  index_le : ∀ c, Loop.Reaches (parseStep sec key buf) (.outer 0) c → c.index ≤ n + 1 ∧
    ∀ l, advance sec buf c = .ok (.line l) → l.i ≤ n

/-! ### The index increases -/

/-- An iteration of the loop over the lines that leaves the section keeps the index; every other one
increases it. -/
lemma index_lt_of_parseStep (h : parseStep sec key buf c = .ok (.inl c')) :
    c.index < c'.index ∨ ∃ secS secE i, c = .lines secS secE i ∧ c' = .outer i := by
  have hgo := toGo_parseStep c c' h
  cases c with
  | outer i =>
    refine Or.inl ?_
    cases c' with
    | outer i' | lines _ _ i' =>
      simp only [Cursor.toGo] at hgo
      simp only [Cursor.index]
      omega
  | lines secS secE i =>
    cases c' with
    | lines _ _ i' =>
      refine Or.inl ?_
      simp only [Cursor.toGo] at hgo
      simp only [Cursor.index]
      omega
    | outer i' =>
      refine Or.inr ⟨secS, secE, i, rfl, ?_⟩
      rcases parseStep_eq_inl h with h | ⟨l, -, -, hc⟩
      · cases advances_of_eq_ok h with
        | leave => rfl
      · exact Cursor.noConfusion hc

lemma index_le_of_reaches (h : Loop.Reaches (parseStep sec key buf) c c') :
    c.index ≤ c'.index := by
  induction h with
  | refl => exact le_rfl
  | tail _ hstep ih =>
    rcases index_lt_of_parseStep hstep with hlt | ⟨secS, secE, i, rfl, rfl⟩
    · exact ih.trans hlt.le
    · exact ih

lemma lt_of_transGen
    (h : Relation.TransGen (Loop.Goes (parseStep sec key buf)) (.outer i) (.outer i')) :
    i < i' := by
  obtain ⟨c, hstep, hreach⟩ := Relation.TransGen.head'_iff.1 h
  have hle : c.index ≤ i' := index_le_of_reaches hreach
  rcases index_lt_of_parseStep hstep with hlt | ⟨_, _, _, hc, -⟩
  · exact Nat.lt_of_lt_of_le hlt hle
  · exact Cursor.noConfusion hc

lemma keyLoop_eq_of_lt {fuel fuel' j valid : ℕ} (h : l.i - j < fuel) (h' : l.i - j < fuel') :
    keyLoop key buf l fuel j valid = keyLoop key buf l fuel' j valid := by
  induction fuel generalizing fuel' j valid with
  | zero => omega
  | succ fuel ih =>
    obtain ⟨fuel', rfl⟩ : ∃ m, fuel' = m + 1 := ⟨fuel' - 1, by omega⟩
    have hnext : ∀ valid, j < l.i →
        keyLoop key buf l fuel (j + 1) valid = keyLoop key buf l fuel' (j + 1) valid :=
      fun valid hj => ih (by omega) (by omega)
    rw [keyLoop, keyLoop]
    by_cases hj : j < l.i
    · simp only [if_pos hj, hnext _ hj]
    · simp only [if_neg hj]

/-! ### The index is bounded -/

section Ended

variable (hn : read buf n = .ok nul) (hn' : read buf (n + 1) = .ok nul) (hsec : nul ∉ sec)

include hn hn' hsec

/-- In the text and on the second terminator the scan finds something to do. -/
lemma advance_of_index_le (hc : c.index ≤ n + 1) :
    ∃ mv, advance sec buf c = .ok mv ∧ (∀ c', mv = .goto c' → c'.index ≤ n + 1) ∧
      ∀ l, mv = .line l → l.i ≤ n := by
  rcases Nat.lt_or_ge n c.index with hlt | hle
  · have hi : c.index = n + 1 := by omega
    -- the second terminator ends both loops
    cases c with
    | outer i =>
      obtain rfl : i = n + 1 := hi
      refine ⟨.stop, by simp [advance, hn', endOfString], fun c' hc' => ?_, fun l hl => ?_⟩
      · exact Move.noConfusion hc'
      · exact Move.noConfusion hl
    | lines secS secE i =>
      obtain rfl : i = n + 1 := hi
      refine ⟨.goto (.outer (n + 1)), by simp [advance, hn, hn', endOfString], fun c' hc' => ?_,
        fun l hl => Move.noConfusion hl⟩
      obtain rfl := Move.goto.inj hc'
      exact le_rfl
  · refine advance_bounded hn hsec hn' (Nat.le_succ n) hle fun i _ hi _ _ => ?_
    exact Nat.lt_succ_of_le (headerEnd_le hn hi).1

lemma index_le_succ (h : Loop.Reaches (parseStep sec key buf) (.outer 0) c) : c.index ≤ n + 1 := by
  induction h with
  | refl => exact Nat.zero_le _
  | tail _ hstep ih =>
    obtain ⟨mv, hmv, hgoto, hline⟩ := advance_of_index_le hn hn' hsec ih
    rcases parseStep_eq_inl hstep with h | ⟨l, hl, -, rfl⟩
    · exact hgoto _ (Except.ok.inj (hmv.symm.trans h))
    · exact Nat.succ_le_succ (hline l (Except.ok.inj (hmv.symm.trans hl)))

/-- The loops come to an end without a fault. -/
lemma exists_run (hnul : nul ∉ key) : ∃ r,
    Loop.run (parseStep sec key buf) (2 * buf.length + 2) (.outer 0) = .ok (some r) := by
  refine Loop.exists_run toGo_parseStep (fun c hc => ?_) _ (by simp only [Cursor.toGo]; omega)
  obtain ⟨mv, hmv, -⟩ := advance_of_index_le hn hn' hsec (index_le_succ hn hn' hsec hc)
  exact exists_parseStep hnul hmv

end Ended

lemma read_twiceEnded (text rest : Text) :
    read (twiceEnded text rest) text.length = .ok nul ∧
      read (twiceEnded text rest) (text.length + 1) = .ok nul := by
  refine ⟨read_append text _ nul, ?_⟩
  simpa [twiceEnded] using read_append (text ++ [nul]) rest nul

/-- For every text, with two terminators behind it, every section and every key: `parse_file`
ends. -/
theorem terminates (text rest : Text) (hsec : nul ∉ sec) (hkey : strlenPos key) (hnul : nul ∉ key) :
    Terminates sec key (twiceEnded text rest) text.length := by
  obtain ⟨hn, hn'⟩ := read_twiceEnded text rest
  have hindex : ∀ c, Loop.Reaches (parseStep sec key (twiceEnded text rest)) (.outer 0) c →
      c.index ≤ text.length + 1 := fun c hc => index_le_succ hn hn' hsec hc
  refine ⟨?_, fun i i' => lt_of_transGen, ?_, ?_, ?_⟩
  · by_cases hpos : strlenPos sec = true
    · obtain ⟨r, hr⟩ := exists_run hn hn' hsec hnul
      exact Or.inr ⟨r, parseFile_eq_ok hpos hkey hr, fun fuel hfuel => Loop.run_of_le hr hfuel⟩
    · have hpos : strlenPos sec = false := Bool.eq_false_iff.2 hpos
      exact Or.inl ⟨hpos, parseFile_assertFailed hpos⟩
  · intro secS secE i secS' secE' i' hstep
    rcases index_lt_of_parseStep hstep with hlt | ⟨_, _, _, -, hc⟩
    · exact hlt
    · exact Cursor.noConfusion hc
  · intro l fuel j valid hfuel
    exact keyLoop_eq_of_lt hfuel (Nat.lt_succ_self _)
  · intro c hc
    obtain ⟨mv, hmv, -, hline⟩ := advance_of_index_le hn hn' hsec (hindex c hc)
    exact ⟨hindex c hc, fun l hl => hline l (Except.ok.inj (hmv.symm.trans hl))⟩

/-- A header that is not closed. -/
theorem terminates_openHeader :
    Terminates "sip".toList "a".toList (twiceEnded "[sip".toList []) 4 :=
  terminates "[sip".toList [] (by decide) (by decide) (by decide)

/-! ### Reading a value -/

/-- `read_profile_string` returns for every file that leaves room for two terminators. -/
theorem readProfileString_ends {s value : Text} {size : ℕ}
    (hlen : (s.takeWhile (· != eofChar)).length ≤ 10238) (hsec : nul ∉ sec) (hpos : strlenPos sec)
    (hkey : strlenPos key) (hnul : nul ∉ key) (hsize : 0 < size) :
    ∃ r, readProfileString sec key value size (some s) = .ok r := by
  have hroom : (s.takeWhile (· != eofChar)).length < maxIniFileSize :=
    Nat.lt_of_le_of_lt hlen (by decide)
  obtain ⟨k, hk⟩ : ∃ k, maxIniFileSize - (s.takeWhile (· != eofChar)).length = k + 2 :=
    Nat.exists_eq_add_of_le' (Nat.le_sub_of_add_le' (Nat.add_le_add_right hlen 2))
  have hbuf : bufferOf s =
      twiceEnded (s.takeWhile (· != eofChar)) (List.replicate k nul) := by
    rw [bufferOf, hk, List.replicate_succ, List.replicate_succ, twiceEnded]
  obtain ⟨hn, hn'⟩ := read_twiceEnded (s.takeWhile (· != eofChar)) (List.replicate k nul)
  obtain ⟨r, hr⟩ := exists_run hn hn' hsec hnul
  have hload : loadIniFile (some s) = .ok (some (bufferOf s)) := by
    rw [loadIniFile_some, if_pos hroom]
  have hparse : parseFile sec key (bufferOf s) = .ok r := by
    rw [hbuf]
    exact parseFile_eq_ok hpos hkey hr
  rw [readProfileString_of_load hpos hkey hsize hload, hparse, ok_bind]
  cases r with
  | none => exact ⟨_, rfl⟩
  | some spans => exact ⟨_, rfl⟩

end Conf
