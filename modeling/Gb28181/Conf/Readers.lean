import Gb28181.Conf.ParseFile

/-!
# What `readStr` and `readInt` return

Both readers are the same lookup, followed by what each does with the text of the value:
`readStr_eq` and `readInt_eq`.  When the key is not there, `readInt` returns -1 and `readStr`
what its uninitialised buffer holds.
-/

namespace Conf

open Lib

variable {file : Option Text} {sec key buf : Text} {stack : StackBuf}

/-! ### The buffer -/

/-- The file as the parser sees it: up to the first byte 0xFF, with the zeroed rest of the
buffer. -/
def bufferOf (s : Text) : Text :=
  s.takeWhile (· != eofChar) ++
    List.replicate (maxIniFileSize - (s.takeWhile (· != eofChar)).length) nul

lemma fillBuf_eq {s : Text} {i : ℕ} (hi : i < maxIniFileSize) :
    fillBuf s i = if i + (s.takeWhile (· != eofChar)).length < maxIniFileSize
      then .ok (s.takeWhile (· != eofChar)) else .error .assertFailed := by
  induction s generalizing i with
  | nil => simp [fillBuf, hi]
  | cons c s ih =>
    by_cases hc : c = eofChar
    · simp [fillBuf, hc, hi]
    · by_cases hi' : i + 1 < maxIniFileSize
      · have htake : (c :: s).takeWhile (· != eofChar) = c :: s.takeWhile (· != eofChar) := by
          simp [hc]
        rw [fillBuf, if_neg hc, if_pos hi', ih hi', htake, List.length_cons]
        split <;> split <;> first | rfl | omega
      · have hlt : ¬ i + ((c :: s).takeWhile (· != eofChar)).length < maxIniFileSize := by
          simp [hc]
          omega
        rw [fillBuf, if_neg hc, if_neg hi', if_neg hlt]

/-- `load_ini_file` needs room for the file and for one byte more. -/
theorem loadIniFile_some (s : Text) :
    loadIniFile (some s) = if (s.takeWhile (· != eofChar)).length < maxIniFileSize
      then .ok (some (bufferOf s)) else .error .assertFailed := by
  rw [loadIniFile, fillBuf_eq (by decide), Nat.zero_add]
  split <;> rfl

lemma takeWhile_eofChar_eq_iff {s : Text} : s.takeWhile (· != eofChar) = s ↔ eofChar ∉ s := by
  rw [List.takeWhile_eq_self_iff]
  constructor
  · intro hall hmem
    exact absurd (hall eofChar hmem) (by simp)
  · intro hs c hc
    have hne : c ≠ eofChar := fun h => hs (h ▸ hc)
    simpa using hne

lemma bufferOf_of_notMem {s : Text} (hs : eofChar ∉ s) :
    bufferOf s = s ++ List.replicate (maxIniFileSize - s.length) nul := by
  rw [bufferOf, takeWhile_eofChar_eq_iff.2 hs]

/-! ### The lookup -/

/-- The text of the value that the file has for a key, if `parse_file` finds the key. -/
def lookup (file : Option Text) (sec key : Text) : Except Fault (Option Text) := do
  match ← loadIniFile file with
  | none => return none
  | some buf =>
    match ← parseFile sec key buf with
    | none => return none
    | some spans => return some ((buf.drop spans.valueS).take (spans.valueE - spans.valueS))

/-- `read_profile_string` on a file that is loaded into `buf`. -/
lemma readProfileString_of_load {value : Text} {size : ℕ} (hsec : strlenPos sec)
    (hkey : strlenPos key) (hsize : 0 < size) (hload : loadIniFile file = .ok (some buf)) :
    readProfileString sec key value size file = parseFile sec key buf >>= fun
      | none => .ok (value, false)
      | some spans =>
        let cpcount := min (spans.valueE - spans.valueS) (size - 1)
        .ok ((buf.drop spans.valueS).take cpcount ++ nul :: value.drop (cpcount + 1), true) := by
  have hassert : (!strlenPos sec || !strlenPos key || size == 0) = false := by
    simp [hsec, hkey, hsize.ne']
  simp only [readProfileString, hassert, hload, ok_bind, Bool.false_eq_true, if_false]
  rfl

/-- `read_profile_string` copies the text that the lookup yields into its buffer, as far as it
fits, and leaves the buffer as it is if there is none. -/
lemma readProfileString_of_lookup (file : Option Text) (value : Text) {size : ℕ}
    (hsec : strlenPos sec) (hkey : strlenPos key) (hsize : 0 < size) :
    match lookup file sec key with
    | .error e => readProfileString sec key value size file = .error e
    | .ok none => readProfileString sec key value size file = .ok (value, false)
    | .ok (some v) => ∃ t,
        readProfileString sec key value size file = .ok (v.take (size - 1) ++ nul :: t, true) := by
  have hassert : (!strlenPos sec || !strlenPos key || size == 0) = false := by
    simp [hsec, hkey, hsize.ne']
  simp only [lookup, readProfileString, hassert, Bool.false_eq_true, if_false]
  rcases loadIniFile file with e | (_ | buf)
  · rfl
  · rfl
  · simp only [ok_bind]
    rcases parseFile sec key buf with e | (_ | spans)
    · rfl
    · rfl
    · simp only [ok_bind, pure_eq_ok]
      exact ⟨value.drop (min (spans.valueE - spans.valueS) (size - 1) + 1),
        by rw [List.take_take, Nat.min_comm]⟩

/-- A value up to the first blank. -/
def cutBlank (v : Text) : Text := v.takeWhile fun c => !blank c && c != nul

lemma ofCStr_append (s t : Text) : ofCStr (s ++ nul :: t) = .ok (s.takeWhile (· != nul)) := by
  have htake : (s ++ nul :: t).takeWhile (· != nul) = s.takeWhile (· != nul) := by
    induction s with
    | nil => simp
    | cons c s ih => by_cases hc : c = nul <;> simp [hc, ih]
  simp [ofCStr, htake]

lemma ofCStr_trimBuf_append (s t : Text) :
    ofCStr (trimBuf (s ++ nul :: t)) = .ok (cutBlank s) := by
  induction s with
  | nil => simp [trimBuf, ofCStr, cutBlank]
  | cons c s ih =>
    rw [List.cons_append, trimBuf]
    by_cases hc : (blank c || c == nul) = true
    · rw [if_pos hc]
      have hcut : (!blank c && c != nul) = false := by
        simpa [bne, Bool.or_eq_true, Bool.and_eq_false_iff, imp_iff_not_or] using hc
      simp [ofCStr, cutBlank, hcut]
    · rw [if_neg hc]
      simp only [Bool.or_eq_true, beq_iff_eq, not_or, Bool.not_eq_true] at hc
      have hmem : nul ∈ trimBuf (s ++ nul :: t) := by
        by_contra hmem
        simp [ofCStr, hmem] at ih
      simp only [ofCStr, if_pos hmem, Except.ok.injEq, cutBlank] at ih
      simp [ofCStr, hmem, cutBlank, hc, ih]

/-- `readStr` returns the text of the value up to a blank; if the key is not there it returns
what the stack held. -/
theorem readStr_eq (hsec : strlenPos sec) (hkey : strlenPos key) :
    readStr file stack sec key = lookup file sec key >>= fun
      | none => ofCStr (trimBuf stack.bytes)
      | some v => .ok (cutBlank (v.take 1023)) := by
  have h := readProfileString_of_lookup file stack.bytes hsec hkey
    (show 0 < 1024 by decide)
  rw [readStr]
  rcases hl : lookup file sec key with e | (_ | v) <;> rw [hl] at h
  · simp only [h, error_bind]
  · simp only [h, ok_bind]
  · obtain ⟨t, ht⟩ := h
    simp only [ht, ok_bind, ofCStr_trimBuf_append]

/-- `readInt` converts the start of the text of the value; if the key is not there it returns
-1. -/
theorem readInt_eq (hsec : strlenPos sec) (hkey : strlenPos key) :
    readInt file sec key = (lookup file sec key).map fun
      | none => -1
      | some v => atoi ((v.take 31).takeWhile (· != nul)) := by
  have h := readProfileString_of_lookup file (List.replicate 32 nul) hsec hkey
    (show 0 < 32 by decide)
  rw [readInt]
  rcases hl : lookup file sec key with e | (_ | v) <;> rw [hl] at h
  · simp only [h, error_bind, Except.map]
  · simp only [h, ok_bind, Bool.false_eq_true, if_false, pure_eq_ok, Except.map]
  · obtain ⟨t, ht⟩ := h
    simp only [ht, ok_bind, if_true, ofCStr_append, pure_eq_ok, Except.map, Nat.add_one_sub_one]

end Conf
