import Gb28181.Conf.Readers

/-!
# Loading the file

`load_ini_file` with all that it writes: the buffer of its caller, `file_size` and its result.  The
loop takes the byte 0xFF for the end of the file, so a file is loaded as it is exactly when it
fits and has no such byte (`loadsFaithfully_iff`).
-/

namespace Conf

open Lib

/-- `(char)fgetc(in)`, with what is left of the file then. -/
def fgetc : Text → Char × Text
  | [] => (eofChar, [])
  | c :: s => (c, s)

/-- The state of the loop: what is left of the file, the buffer and the index. -/
structure LoadState where
  rest : Text
  buf : Text
  i : ℕ
  deriving DecidableEq, Repr

/-- An iteration of the loop. -/
def loadStep : Loop.Body LoadState (Text × ℕ) Fault := fun s => do
  if (← read s.buf s.i) = eofChar then return .inr (s.buf, s.i)
  else
    let i := s.i + 1
    if i < maxIniFileSize then
      let (c, rest) := fgetc s.rest
      return .inl ⟨rest, ← write s.buf i c, i⟩
    else throw .assertFailed

/-- The result of `load_ini_file` and what it has written. -/
structure Loaded where
  ret : ℤ
  buf : Text
  fileSize : ℕ
  deriving DecidableEq, Repr

/-- `load_ini_file` into a buffer; the file is `none` when `fopen` fails. -/
def loadIniFileInto (file : Option Text) (buf : Text) : Except Fault Loaded :=
  match file with
  | none => .ok ⟨0, buf, 0⟩
  | some s => do
    let (c, rest) := fgetc s
    let buf ← write buf 0 c
    match Loop.run loadStep (maxIniFileSize + 1) ⟨rest, buf, 0⟩ with
    | .ok (some (buf, i)) => return ⟨1, ← write buf i nul, i⟩
    | .ok none => throw .diverges
    | .error e => throw e

/-- The buffer of `read_profile_string`. -/
structure IniBuf where
  bytes : Text
  length_bytes : bytes.length = maxIniFileSize

/-- The file is in the buffer as it is, and the size is the one that it has. -/
def LoadsFaithfully (file : Text) (buf : IniBuf) : Prop :=
  ∃ r, loadIniFileInto (some file) buf.bytes = .ok r ∧ r.ret = 1 ∧ r.fileSize = file.length ∧
    r.buf.take file.length = file ∧ r.buf[file.length]? = some nul ∧
    r.buf.length = maxIniFileSize

variable {file front back s : Text} {n : ℕ} {b c : Char}

/-! ### The loop -/

/-- The loop from the storing of the next byte on. -/
def loadFrom (n : ℕ) (s buf : Text) (i : ℕ) : Except Fault (Option (Text × ℕ)) := do
  let buf ← write buf i (fgetc s).1
  Loop.run loadStep n ⟨(fgetc s).2, buf, i⟩

/-- The loop ends where `EOF` or the byte 0xFF was stored. -/
lemma loadFrom_of_eof (hs : (fgetc s).1 = eofChar) (hn : 0 < n) :
    loadFrom n s (front ++ b :: back) front.length =
      .ok (some (front ++ eofChar :: back, front.length)) := by
  obtain ⟨m, rfl⟩ := Nat.exists_eq_succ_of_ne_zero hn.ne'
  have hleave : loadStep ⟨(fgetc s).2, front ++ eofChar :: back, front.length⟩ =
      .ok (.inr (front ++ eofChar :: back, front.length)) := by
    simp only [loadStep, read_append, ok_bind, if_true, pure_eq_ok]
  rw [loadFrom, hs, write_append, ok_bind]
  exact Loop.run_succ_of_leaves hleave m

/-- Behind any other byte the loop goes on, if there is room. -/
lemma loadFrom_of_ne (hc : c ≠ eofChar) (hlen : front.length + back.length + 1 = maxIniFileSize)
    (hn : 0 < n) :
    loadFrom n (c :: s) (front ++ b :: back) front.length = if 0 < back.length
      then loadFrom (n - 1) s ((front ++ [c]) ++ back) (front ++ [c]).length
      else .error .assertFailed := by
  obtain ⟨m, rfl⟩ := Nat.exists_eq_succ_of_ne_zero hn.ne'
  have hstore : loadFrom (m + 1) (c :: s) (front ++ b :: back) front.length =
      Loop.run loadStep (m + 1) ⟨s, front ++ c :: back, front.length⟩ := by
    rw [loadFrom, fgetc, write_append, ok_bind]
  rw [Nat.succ_eq_add_one, hstore]
  cases back with
  | nil =>
    -- the index was increased before it is compared with the bound
    have hfull : ¬ front.length + 1 < maxIniFileSize := by
      rw [← hlen]
      exact Nat.lt_irrefl _
    have hfail : loadStep ⟨s, front ++ [c], front.length⟩ = .error .assertFailed := by
      simp only [loadStep, read_append, ok_bind, if_neg hc, if_neg hfull, throw_eq_error]
    rw [Loop.run, hfail]
    rfl
  | cons d back =>
    have hroom : front.length + 1 < maxIniFileSize := by
      rw [← hlen, List.length_cons]
      omega
    have hwrite : write (front ++ c :: d :: back) (front.length + 1) (fgetc s).1 =
        .ok (front ++ c :: (fgetc s).1 :: back) := by
      simpa using write_append (front ++ [c]) back d (fgetc s).1
    have hgoes : loadStep ⟨s, front ++ c :: d :: back, front.length⟩ =
        .ok (.inl ⟨(fgetc s).2, front ++ c :: (fgetc s).1 :: back, front.length + 1⟩) := by
      simp only [loadStep, read_append, ok_bind, if_neg hc, if_pos hroom, hwrite, pure_eq_ok]
    rw [if_pos (List.length_pos_of_ne_nil (List.cons_ne_nil d back)), Nat.add_one_sub_one, loadFrom,
      List.length_append, List.length_singleton, List.append_assoc, List.singleton_append, hwrite,
      ok_bind]
    exact Loop.run_succ_of_goes hgoes m

/-- The loop stores the file up to the first byte 0xFF, if there is room for it and for one byte
more.  The induction is on what is left of the file; `back` is the rest of the buffer. -/
lemma loadFrom_eq (hlen : front.length + back.length = maxIniFileSize) (hback : back ≠ [])
    (hn : back.length < n) :
    loadFrom n s (front ++ back) front.length =
      if (s.takeWhile (· != eofChar)).length < back.length
      then .ok (some (front ++ (s.takeWhile (· != eofChar) ++
        eofChar :: back.drop ((s.takeWhile (· != eofChar)).length + 1)),
          front.length + (s.takeWhile (· != eofChar)).length))
      else .error .assertFailed := by
  induction s generalizing front back n with
  | nil =>
    obtain ⟨b, back, rfl⟩ := List.exists_cons_of_ne_nil hback
    rw [loadFrom_of_eof rfl (by omega)]
    rfl
  | cons c s ih =>
    obtain ⟨b, back, rfl⟩ := List.exists_cons_of_ne_nil hback
    by_cases hc : c = eofChar
    · have htake : (c :: s).takeWhile (· != eofChar) = [] :=
        List.takeWhile_cons_of_neg (by simp [hc])
      rw [loadFrom_of_eof (show (fgetc (c :: s)).1 = eofChar from hc) (by omega), htake]
      rfl
    · have htake : (c :: s).takeWhile (· != eofChar) = c :: s.takeWhile (· != eofChar) :=
        List.takeWhile_cons_of_pos (by simpa using hc)
      rw [List.length_cons] at hlen hn
      rw [loadFrom_of_ne hc (by omega) (by omega), htake]
      cases back with
      | nil => rfl
      | cons d back =>
        have hfront : (front ++ [c]).length = front.length + 1 := by simp
        have hback' : d :: back ≠ [] := List.cons_ne_nil d back
        rw [if_pos (List.length_pos_of_ne_nil hback'), ih (by omega) hback' (by omega), hfront]
        simp only [List.length_cons, Nat.add_lt_add_iff_right, List.append_assoc,
          List.cons_append, List.nil_append, List.drop_succ_cons]
        split
        · rw [Nat.add_assoc, Nat.add_comm 1]
        · rfl

/-! ### The file -/

/-- `load_ini_file` stores the file up to the first byte 0xFF and ends it with a terminator, or its
assertion fails. -/
theorem loadIniFileInto_some (s : Text) {buf : Text} (hbuf : buf.length = maxIniFileSize) :
    loadIniFileInto (some s) buf = if (s.takeWhile (· != eofChar)).length < maxIniFileSize
      then .ok ⟨1, s.takeWhile (· != eofChar) ++
        nul :: buf.drop ((s.takeWhile (· != eofChar)).length + 1),
          (s.takeWhile (· != eofChar)).length⟩
      else .error .assertFailed := by
  have hne : buf ≠ [] := by
    rintro rfl
    exact absurd hbuf (by decide)
  have hlen : ([] : Text).length + buf.length = maxIniFileSize := (Nat.zero_add _).trans hbuf
  have hfrom := loadFrom_eq (s := s) (n := maxIniFileSize + 1) hlen hne (by omega)
  -- the first byte is stored before the loop
  obtain ⟨b, back, rfl⟩ := List.exists_cons_of_ne_nil hne
  have hwrite : write (b :: back) 0 (fgetc s).1 = .ok ((fgetc s).1 :: back) :=
    write_append [] back b (fgetc s).1
  rw [loadFrom, List.nil_append, List.length_nil, hwrite, ok_bind, hbuf] at hfrom
  by_cases hroom : (s.takeWhile (· != eofChar)).length < maxIniFileSize
  · rw [if_pos hroom] at hfrom
    simp only [loadIniFileInto, hwrite, ok_bind, hfrom, if_pos hroom, List.nil_append,
      Nat.zero_add, write_append, pure_eq_ok]
  · rw [if_neg hroom] at hfrom
    simp only [loadIniFileInto, hwrite, ok_bind, hfrom, if_neg hroom, throw_eq_error]

/-- On the zeroed buffer of `read_profile_string` the loop stores what `loadIniFile` says. -/
theorem loadIniFileInto_zeroed (s : Text) :
    (loadIniFileInto (some s) (List.replicate maxIniFileSize nul)).map (some ·.buf) =
      loadIniFile (some s) := by
  rw [loadIniFileInto_some s List.length_replicate, loadIniFile_some]
  split
  · next hroom =>
    obtain ⟨n, hn⟩ : ∃ n, maxIniFileSize - (s.takeWhile (· != eofChar)).length = n + 1 :=
      ⟨_, (Nat.succ_pred_eq_of_pos (Nat.sub_pos_of_lt hroom)).symm⟩
    have hdrop : maxIniFileSize - ((s.takeWhile (· != eofChar)).length + 1) = n := by omega
    rw [bufferOf, hn, List.replicate_succ, List.drop_replicate, hdrop]
    rfl
  · rfl

/-- A file that leaves room for the terminator is loaded as it is if and only if it has no byte
0xFF. -/
theorem loadsFaithfully_iff {file : Text} (hlen : file.length ≤ 10239) (buf : IniBuf) :
    LoadsFaithfully file buf ↔ eofChar ∉ file := by
  have hle : (file.takeWhile (· != eofChar)).length ≤ file.length :=
    (List.takeWhile_prefix _).length_le
  have hroom : (file.takeWhile (· != eofChar)).length < maxIniFileSize :=
    Nat.lt_of_le_of_lt (hle.trans hlen) (by decide)
  have hload := loadIniFileInto_some file buf.length_bytes
  rw [if_pos hroom] at hload
  rw [← takeWhile_eofChar_eq_iff]
  constructor
  · rintro ⟨r, hr, -, hsize, -⟩
    obtain rfl := Except.ok.inj (hload.symm.trans hr)
    exact (List.takeWhile_prefix _).eq_of_length hsize
  · intro hfile
    rw [hfile] at hload hroom
    refine ⟨_, hload, rfl, rfl, List.take_left, ?_, ?_⟩
    · rw [List.getElem?_append_right (Nat.le_refl _), Nat.sub_self, List.getElem?_cons_zero]
    · have := buf.length_bytes
      simp only [List.length_append, List.length_cons, List.length_drop]
      omega

/-- The zeroed buffer. -/
def IniBuf.zeroed : IniBuf := ⟨List.replicate maxIniFileSize nul, List.length_replicate⟩

theorem loadsFaithfully_section : LoadsFaithfully "[sip]\nid=1\n".toList .zeroed :=
  (loadsFaithfully_iff (by decide) .zeroed).2 (by decide)

/-- A byte 0xFF behind the header hides the setting after it. -/
theorem not_loadsFaithfully_eofChar :
    ¬ LoadsFaithfully "[sip]\n\xffid=1\n".toList .zeroed := by
  rintro ⟨r, hr, -, hsize, -⟩
  rw [loadIniFileInto_some _ IniBuf.zeroed.length_bytes, if_pos (by decide)] at hr
  obtain rfl := Except.ok.inj hr
  exact absurd hsize (by decide)

end Conf
