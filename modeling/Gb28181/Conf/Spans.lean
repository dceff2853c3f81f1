import Gb28181.Conf.Advance

/-!
# The indices that `parse_file` returns

The indices are in order and inside the text, so `read_profile_string` never copies a negative
number of bytes: what it leaves behind is as much of the value as fits (`spans_wellFormed`).
-/

namespace Conf

open Lib

variable {sec key buf text value : Text} {c c' : Cursor} {l : LineAt} {ls : List LineAt}
  {spans : Spans} {i k n : ℕ}

/-- A text with a terminator and zeroes behind it. -/
def padded (text : Text) (k : ℕ) : Text := text ++ List.replicate (k + 1) nul

/-- The indices are in order, and those of the key and of the value delimit parts of one line of a
text of `n` characters. -/
structure WellFormed (buf : Text) (n : ℕ) (spans : Spans) : Prop where
  section_le : 0 < spans.secS ∧ spans.secS < spans.secE ∧ spans.secE ≤ spans.keyS
  key_le : spans.keyS ≤ spans.keyE ∧ spans.keyE < spans.valueS
  value_le : spans.valueS ≤ spans.valueE ∧ spans.valueE ≤ n
  equals : read buf (spans.keyE + 1) = .ok '='
  oneLine : ∀ m, spans.keyS ≤ m → m < spans.valueE → ∃ d, read buf m = .ok d ∧ newline d = false
  ended : spans.valueE = n ∨ ∃ d, read buf spans.valueE = .ok d ∧ newline d = true

/-! ### The copy -/

/-- `cpcount` of `read_profile_string`, an `int`. -/
def cpcount (spans : Spans) (size : ℤ) : ℤ :=
  let cpcount : ℤ := spans.valueE - spans.valueS
  if size - 1 < cpcount then size - 1 else cpcount

/-- `memcpy`, for which a negative count is a huge one. -/
def memcpy (dst src : Text) (count : ℤ) : Except Fault Text :=
  if 0 ≤ count ∧ count ≤ src.length ∧ count ≤ dst.length
    then .ok (src.take count.toNat ++ dst.drop count.toNat)
  else .error .outOfBounds

/-- The end of `read_profile_string`, with a destination of as many bytes as `size` says. -/
def copyValue (buf : Text) (spans : Spans) (value : Text) : Except Fault Text := do
  let count := cpcount spans value.length
  let value ← memcpy value (buf.drop spans.valueS) count
  write value count.toNat nul

/-- The text of the value. -/
def valueText (buf : Text) (spans : Spans) : Text :=
  (buf.drop spans.valueS).take (spans.valueE - spans.valueS)

/-- The destination gets the longest part of the value that leaves room for a terminator, and keeps
its other bytes. -/
structure BoundedCopy (buf : Text) (spans : Spans) (value : Text) : Prop where
  count_nonneg : 0 ≤ cpcount spans value.length
  count_le : cpcount spans value.length ≤ value.length - 1
  copied : copyValue buf spans value = .ok ((valueText buf spans).take (value.length - 1) ++
    nul :: value.drop ((cpcount spans value.length).toNat + 1))
  text : nul ∉ valueText buf spans

/-! ### The section -/

lemma section_of_enterSection {secS secE j : ℕ}
    (h : enterSection sec buf i = .ok (.goto (.lines secS secE j))) :
    0 < secS ∧ secS < secE ∧ secE ≤ j := by
  obtain ⟨e, he, ⟨m, -, hm, hgoto⟩ | hgoto⟩ := enterSection_eq_ok h
  · obtain ⟨rfl, rfl, rfl⟩ := Cursor.lines.inj (Move.goto.inj hgoto)
    have hie := skipWhile_bounds he
    have hem := skipWhile_bounds hm
    omega
  · exact Cursor.noConfusion (Move.goto.inj hgoto)

/-- Wherever the scan stands in a section, it stands behind its header. -/
lemma section_of_scans (h : Scans sec buf ls c) :
    ∀ secS secE i, c = .lines secS secE i → 0 < secS ∧ secS < secE ∧ secE ≤ i := by
  induction h with
  | start => intro secS secE i hc; exact Cursor.noConfusion hc
  | @goto ls c c' _ hgoto ih =>
    rintro secS secE i rfl
    cases advances_of_eq_ok hgoto with
    | header hstart hread henter => exact section_of_enterSection henter
  | @line ls c l _ hl ih =>
    intro secS secE i hc
    obtain ⟨rfl, rfl, rfl⟩ := Cursor.lines.inj hc
    obtain ⟨rfl, hskip⟩ := advance_eq_line hl
    have hle := skipWhile_bounds hskip
    have := ih _ _ _ rfl
    omega

/-! ### The line -/

/-- A line that is met starts in the text and ends with it at the latest. -/
lemma line_le (hpad : ∀ m d, n ≤ m → read buf m = .ok d → d = nul) (hn : read buf n = .ok nul)
    (h : advance sec buf c = .ok (.line l)) : l.newlineStart < n ∧ l.i ≤ n := by
  obtain ⟨d, hd, hend⟩ : ∃ d, read buf l.newlineStart = .ok d ∧ endOfString d = false := by
    cases advances_of_eq_ok h with
    | header _ _ henter => exact absurd henter enterSection_ne_line
    | @line _ _ _ _ prev d _ hd hno => exact ⟨d, hd, (Bool.or_eq_false_iff.1 hno).2⟩
  have hstart : l.newlineStart < n := by
    by_contra hge
    obtain rfl := hpad _ d (Nat.le_of_not_lt hge) hd
    exact absurd hend (by simp [endOfString])
  obtain ⟨rfl, -⟩ := advance_eq_line h
  refine ⟨hstart, ?_⟩
  rcases advance_lines hn sec l.secS l.secE hstart.le with
    h' | ⟨-, l', h', -, hl'⟩
  · exact absurd (Except.ok.inj (h.symm.trans h')) (by simp)
  · obtain rfl := Move.line.inj (Except.ok.inj (h.symm.trans h'))
    exact hl'

/-- The parts of a line that sets something. -/
lemma settingOf_parts {line : Text} {set : Setting} (h : settingOf line = some set) :
    ∃ k v, line = k ++ '=' :: v ∧ k = line.takeWhile (· != '=') ∧ k ≠ [] ∧
      set.value.length ≤ v.length := by
  obtain ⟨-, hne⟩ := settingOf_key h
  rw [settingOf] at h
  split at h
  · simp at h
  · split at h
    · next c s d v hk hd =>
      obtain rfl := Option.some.inj h
      refine ⟨line.takeWhile (· != '='), v, ?_, rfl, hne, (List.dropWhile_suffix _).length_le⟩
      have hsplit := List.takeWhile_append_dropWhile (p := (· != '=')) (l := line)
      have heq : d = '=' := by
        have := List.head?_dropWhile_not (· != '=') line
        rw [hd] at this
        simpa using this
      rw [hd, heq] at hsplit
      exact hsplit.symm
    · simp at h

lemma read_inside {line : Text} (h : IsLine buf l line) {m : ℕ} (hm : l.newlineStart ≤ m)
    (hmi : m < l.i) : ∃ d ∈ line, read buf m = .ok d := by
  obtain ⟨c, s, hdrop, -⟩ := h.drop_eq
  obtain ⟨j, rfl⟩ := Nat.exists_eq_add_of_le hm
  have hj : j < line.length := by
    have := h.i_eq
    omega
  refine ⟨line.get ⟨j, hj⟩, List.get_mem .., ?_⟩
  rw [read_eq_ok, ← List.getElem?_drop, hdrop, List.getElem?_append_left hj]
  simp

/-- The indices of a line that sets something. -/
lemma wellFormed_of_line {line : Text} {set : Setting} (htext : ∀ d, l.i < n →
      read buf l.i = .ok d → d ≠ nul) (hl : IsLine buf l line) (hset : settingOf line = some set)
    (hi : l.i ≤ n) (hsection : 0 < l.secS ∧ l.secS < l.secE ∧ l.secE ≤ l.newlineStart) :
    WellFormed buf n (l.spans line set) := by
  obtain ⟨k, v, hline, hk, hne, hv⟩ := settingOf_parts hset
  obtain ⟨d, s, hdrop, hd⟩ := hl.drop_eq
  have hpos := List.length_pos_of_ne_nil hne
  have hend : l.i = l.newlineStart + (k.length + (v.length + 1)) := by
    rw [hl.i_eq, hline, List.length_append, List.length_cons]
  have hspans : l.spans line set = ⟨l.secS, l.secE, l.newlineStart,
      l.newlineStart + k.length - 1, l.i - set.value.length, l.i⟩ := by
    rw [LineAt.spans, ← hk]
  rw [hspans]
  refine ⟨hsection, ⟨?_, ?_⟩, ⟨Nat.sub_le _ _, hi⟩, ?_, fun m hm hmi => ?_, ?_⟩
  · show l.newlineStart ≤ l.newlineStart + k.length - 1
    omega
  · show l.newlineStart + k.length - 1 < l.i - set.value.length
    omega
  · show read buf (l.newlineStart + k.length - 1 + 1) = .ok '='
    rw [Nat.sub_add_cancel (by omega)]
    rw [hline, List.append_assoc, List.cons_append] at hdrop
    exact read_add_length hdrop
  · obtain ⟨x, hx, hread⟩ := read_inside hl hm hmi
    exact ⟨x, hread, (Bool.or_eq_false_iff.1 (hl.inside x hx)).1⟩
  · -- the line ends with a newline or with the text
    have hread : read buf l.i = .ok d := hl.i_eq ▸ read_add_length hdrop
    rcases Nat.lt_or_eq_of_le hi with hlt | heq
    · refine Or.inr ⟨d, hread, ?_⟩
      rw [Bool.or_eq_true] at hd
      rcases hd with hnl | hnul
      · exact hnl
      · exact absurd (beq_iff_eq.1 hnul) (htext d hlt hread)
    · exact Or.inl heq

/-! ### The padding -/

lemma read_padded_of_lt {d : Char} (htext : nul ∉ text) (hi : i < text.length)
    (h : read (padded text k) i = .ok d) : d ≠ nul := by
  rintro rfl
  rw [read_eq_ok, padded, List.getElem?_append_left hi] at h
  exact htext (List.mem_of_getElem? h)

lemma read_padded_of_le {d : Char} (hi : text.length ≤ i)
    (h : read (padded text k) i = .ok d) : d = nul := by
  rw [read_eq_ok, padded, List.getElem?_append_right hi] at h
  exact List.eq_of_mem_replicate (List.mem_of_getElem? h)

lemma read_padded_end (text : Text) (k : ℕ) : read (padded text k) text.length = .ok nul := by
  rw [padded, List.replicate_succ]
  exact read_append text _ nul

lemma strlenPos_of_parseFile {r : Option Spans} (h : parseFile sec key buf = .ok r) :
    strlenPos sec ∧ strlenPos key := by
  rw [parseFile] at h
  split at h
  · exact absurd h (by simp)
  · next hassert => simpa [Bool.or_eq_true] using hassert

/-- A match sets indices that are in order and inside the text. -/
theorem wellFormed_of_parseFile (htext : nul ∉ text) (hnul : nul ∉ key)
    (h : parseFile sec key (padded text k) = .ok (some spans)) :
    WellFormed (padded text k) text.length spans := by
  obtain ⟨hsec, hkey⟩ := strlenPos_of_parseFile h
  obtain ⟨l, set, hfirst, rfl⟩ := (parseFile_eq_some_iff_firstMatch hsec hkey hnul).1 h
  obtain ⟨ls, c, hscan, hl, -⟩ := hfirst.first
  obtain ⟨rfl, -⟩ := advance_eq_line hl
  obtain ⟨-, hi⟩ := line_le (fun m d => read_padded_of_le) (read_padded_end text k) hl
  exact wellFormed_of_line (fun d hlt => read_padded_of_lt htext hlt) (isLine_of_advance hl)
    hfirst.settingOf_eq hi (section_of_scans hscan _ _ _ rfl)

/-! ### The value -/

lemma cpcount_bounds (h : spans.valueS ≤ spans.valueE) {size : ℕ} (hsize : 0 < size) :
    0 ≤ cpcount spans size ∧ cpcount spans size ≤ size - 1 ∧
      (cpcount spans size).toNat = min (spans.valueE - spans.valueS) (size - 1) := by
  rw [cpcount]
  split <;> omega

lemma nul_notMem_valueText (hw : WellFormed (padded text k) text.length spans)
    (htext : nul ∉ text) : nul ∉ valueText (padded text k) spans := by
  intro hmem
  obtain ⟨j, hj⟩ := List.mem_iff_getElem?.1 hmem
  have hle := hw.value_le
  have hlt : j < spans.valueE - spans.valueS := by
    have := (List.getElem?_eq_some_iff.1 hj).1
    rw [valueText, List.length_take] at this
    omega
  rw [valueText, List.getElem?_take_of_lt hlt, List.getElem?_drop] at hj
  exact read_padded_of_lt htext (by omega) (read_eq_ok.2 hj) rfl

/-- A copy that fits into the destination with a byte to spare. -/
lemma copyValue_eq {m : ℕ} (hm : cpcount spans value.length = m) (hvalue : m < value.length)
    (hsrc : spans.valueS + m ≤ buf.length) :
    copyValue buf spans value =
      .ok ((buf.drop spans.valueS).take m ++ nul :: value.drop (m + 1)) := by
  -- the count is not negative, so `memcpy` copies what it says
  have hcopy : memcpy value (buf.drop spans.valueS) m =
      .ok ((buf.drop spans.valueS).take m ++ value.drop m) := by
    rw [memcpy, if_pos, Int.toNat_natCast]
    rw [List.length_drop]
    omega
  have hlen : ((buf.drop spans.valueS).take m).length = m := by
    rw [List.length_take, List.length_drop]
    omega
  have hwrite := write_append ((buf.drop spans.valueS).take m) (value.drop (m + 1))
    (value.get ⟨m, hvalue⟩) nul
  rw [hlen] at hwrite
  rw [copyValue, hm, hcopy, ok_bind, Int.toNat_natCast, List.drop_eq_getElem_cons hvalue]
  exact hwrite

/-- Well-formed indices bound the copy. -/
lemma boundedCopy_of_wellFormed (hw : WellFormed (padded text k) text.length spans)
    (htext : nul ∉ text) (hsize : 0 < value.length) :
    BoundedCopy (padded text k) spans value := by
  obtain ⟨hle, hn⟩ := hw.value_le
  obtain ⟨hnonneg, hmax, hcount⟩ := cpcount_bounds hle hsize
  have hbuf : (padded text k).length = text.length + (k + 1) := by
    rw [padded, List.length_append, List.length_replicate]
  refine ⟨hnonneg, hmax, ?_, nul_notMem_valueText hw htext⟩
  rw [copyValue_eq (Int.toNat_of_nonneg hnonneg).symm (by omega) (by omega), valueText,
    List.take_take, hcount, Nat.min_comm]

/-- For every text, section, key and destination: the indices that `parse_file` returns are
well-formed, and `read_profile_string` copies as much of the value as fits. -/
theorem spans_wellFormed (htext : nul ∉ text) (hnul : nul ∉ key) (hsize : 0 < value.length)
    (h : parseFile sec key (padded text k) = .ok (some spans)) :
    WellFormed (padded text k) text.length spans ∧ BoundedCopy (padded text k) spans value ∧
      ∀ file, loadIniFile file = .ok (some (padded text k)) →
        readProfileString sec key value value.length file =
          (copyValue (padded text k) spans value).map (·, true) := by
  have hw := wellFormed_of_parseFile htext hnul h
  have hcopy : BoundedCopy (padded text k) spans value := boundedCopy_of_wellFormed hw htext hsize
  refine ⟨hw, hcopy, fun file hload => ?_⟩
  obtain ⟨hsec, hkey⟩ := strlenPos_of_parseFile h
  obtain ⟨-, -, hcount⟩ := cpcount_bounds hw.value_le.1 hsize
  rw [readProfileString_of_load hsec hkey hsize hload, h, ok_bind, hcopy.copied, hcount, valueText,
    List.take_take, Nat.min_comm]
  rfl

/-- A line without a newline and a destination of three bytes. -/
theorem spans_wellFormed_unendedLine :
    WellFormed (padded "[sip]\nid = 1234".toList 0) 15 ⟨1, 6, 6, 8, 11, 15⟩ ∧
      BoundedCopy (padded "[sip]\nid = 1234".toList 0) ⟨1, 6, 6, 8, 11, 15⟩ ['a', 'b', 'c'] ∧
        ∀ file, loadIniFile file = .ok (some (padded "[sip]\nid = 1234".toList 0)) →
          readProfileString "sip".toList "id".toList ['a', 'b', 'c'] 3 file =
            (copyValue (padded "[sip]\nid = 1234".toList 0) ⟨1, 6, 6, 8, 11, 15⟩
              ['a', 'b', 'c']).map (·, true) := by
  have hparse : parseFile "sip".toList "id".toList (padded "[sip]\nid = 1234".toList 0) =
      .ok (some ⟨1, 6, 6, 8, 11, 15⟩) := by
    decide +kernel
  exact spans_wellFormed (by decide) (by decide) (by decide) hparse

end Conf
