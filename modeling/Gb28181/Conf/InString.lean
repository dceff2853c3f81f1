import Gb28181.Lib.Extends
import Gb28181.Conf.Advance

/-!
# The end of the string

Whether `parse_file` reads behind the terminator of its text.  It does so at a last line of a
section that has no newline, and at a last header that begins the name of the section and is not
closed, unless it finds the key before.  Here this is said of the lines that the scan meets.
-/

namespace Conf

open Lib

variable {sec key text buf buf' : Text} {c c' : Cursor} {l : LineAt} {ls : List LineAt} {i n : ℕ}

/-- `parse_file` reads nothing behind the terminator of the text: it gets by with the memory that
ends there, and what follows has no effect. -/
structure StaysInside (sec key text : Text) : Prop where
  inside : parseFile sec key (cstr text) ≠ .error .outOfBounds
  result : ∀ rest rest',
    parseFile sec key (text ++ nul :: rest) = parseFile sec key (text ++ nul :: rest')

/-- A line of the section has a key that begins the requested one. -/
def KeyMet (sec key text : Text) : Prop :=
  ∃ ls c l, Scans sec (cstr text) ls c ∧ advance sec (cstr text) c = .ok (.line l) ∧
    BeginsKey key (lineText (cstr text) l)

/-- The lines of the section end with newlines, and the headers that begin its name are closed. -/
structure Ended (sec text : Text) : Prop where
  lines : ∀ ls c l, Scans sec (cstr text) ls c → advance sec (cstr text) c = .ok (.line l) →
    l.i < text.length
  headers : ∀ ls i, Scans sec (cstr text) ls (.outer i) → HeaderLine (cstr text) i →
    fold (headerName (cstr text) (i + 1)) <+: fold sec → headerEnd (cstr text) i < text.length

/-! ### More memory -/

section Extends

variable (hbuf : buf <+: buf')

include hbuf

lemma atLineStart_extends : Extends (atLineStart buf i) (atLineStart buf' i) := by
  cases i with
  | zero => exact .refl _
  | succ i => exact (read_extends hbuf).bind fun _ => .refl _

lemma enterSection_extends : Extends (enterSection sec buf i) (enterSection sec buf' i) :=
  (skipWhile_extends hbuf).bind fun _ =>
    (strncasecmp_extends (List.IsPrefix.drop hbuf _) List.prefix_rfl).bind fun _ =>
      .ite ((skipWhile_extends hbuf).bind fun _ => .refl _) (.refl _)

lemma advance_extends : Extends (advance sec buf c) (advance sec buf' c) := by
  cases c with
  | outer i =>
    refine (read_extends hbuf).bind fun a => .ite (.refl _) ?_
    exact (atLineStart_extends hbuf).bind fun b => .ite (enterSection_extends hbuf) (.refl _)
  | lines s e i =>
    refine (read_extends hbuf).bind fun a => (read_extends hbuf).bind fun b => .ite (.refl _) ?_
    exact (skipWhile_extends hbuf).bind fun _ => .refl _

lemma keyLoop_extends {fuel j valid : ℕ} :
    Extends (keyLoop key buf l fuel j valid) (keyLoop key buf' l fuel j valid) := by
  induction fuel generalizing j valid with
  | zero => exact .refl _
  | succ fuel ih =>
    rw [keyLoop, keyLoop]
    refine .ite ((read_extends hbuf).bind fun a => .ite (.refl _) ?_) (.refl _)
    refine (read_extends hbuf).bind fun b => .ite ?_ ih
    exact (strncasecmp_extends List.prefix_rfl (List.IsPrefix.drop hbuf _)).bind fun r =>
      .ite (.refl _) ih

lemma matchLine_extends : Extends (matchLine key buf l) (matchLine key buf' l) := by
  refine (read_extends hbuf).bind fun a => .ite (.refl _) ?_
  refine (keyLoop_extends hbuf).bind fun r => ?_
  cases r with
  | none => exact .refl _
  | some j => exact (skipWhile_extends hbuf).bind fun _ => .refl _

lemma parseStep_extends : Extends (parseStep sec key buf c) (parseStep sec key buf' c) := by
  refine (advance_extends hbuf).bind fun m => ?_
  cases m with
  | stop | goto => exact .refl _
  | line l =>
    refine (matchLine_extends hbuf).bind fun r => ?_
    cases r with
    | none | some => exact .refl _

/-- What `parse_file` finds in its memory it finds with more memory as well. -/
theorem parseFile_extends : Extends (parseFile sec key buf) (parseFile sec key buf') := by
  rw [parseFile, parseFile]
  refine .ite (.refl _) fun r hr => ?_
  split at hr
  · next a hrun =>
    obtain rfl := Except.ok.inj hr
    have hrun' := Loop.run_extends (fun _ => parseStep_extends hbuf) _ _ hrun
    rw [Loop.run_of_le hrun' (by have := hbuf.length_le; omega)]
  · simp at hr
  · simp at hr

end Extends

/-! ### The end of the memory -/

lemma read_cstr (text : Text) : read (cstr text) text.length = .ok nul := read_append text [] nul

lemma drop_cstr (text : Text) : (cstr text).drop (text.length + 1) = [] := by
  rw [List.drop_eq_nil_iff, cstr, List.length_append, List.length_singleton]

/-- As long as the lines end and the headers are closed, the scan stays in the text. -/
lemma index_le_of_scans (hsec : nul ∉ sec) (hended : Ended sec text)
    (h : Scans sec (cstr text) ls c) : c.index ≤ text.length := by
  have hn := read_cstr text
  induction h with
  | start => exact Nat.zero_le _
  | @goto ls c c' hscan hc ih =>
    obtain ⟨m, hm, hgoto, -⟩ := advance_bounded hn hsec hn le_rfl ih fun i hi _ hheader hpre =>
      hended.headers ls i (hi ▸ hscan) hheader hpre
    exact hgoto c' (Except.ok.inj (hm.symm.trans hc))
  | line hscan hl => exact hended.lines _ _ _ hscan hl

/-- So it never faults. -/
lemma exists_parseStep_of_scans (hsec : nul ∉ sec) (hkey : nul ∉ key) (hended : Ended sec text)
    (h : Scans sec (cstr text) ls c) : ∃ r, parseStep sec key (cstr text) c = .ok r := by
  have hn := read_cstr text
  obtain ⟨m, hm, -⟩ := advance_bounded hn hsec hn le_rfl (index_le_of_scans hsec hended h)
    fun i hi _ hheader hpre => hended.headers ls i (hi ▸ h) hheader hpre
  exact exists_parseStep hkey hm

/-- Behind a line that ends with the terminator the scan faults. -/
lemma advance_behind (sec text : Text) (secS secE : ℕ) :
    advance sec (cstr text) (.lines secS secE (text.length + 1)) = .error .outOfBounds := by
  have hbehind : read (cstr text) (text.length + 1) = .error .outOfBounds := by
    rw [Lib.read, List.getElem?_eq_none (by simp [cstr])]
  simp only [advance, Nat.add_sub_cancel, read_cstr, ok_bind, hbehind, error_bind]

/-- Behind a header that is not closed the scan faults. -/
lemma enterSection_behind (hsec : nul ∉ sec) (hi : i < text.length)
    (hpre : fold (headerName (cstr text) (i + 1)) <+: fold sec)
    (hend : text.length ≤ headerEnd (cstr text) i) :
    enterSection sec (cstr text) i = .error .outOfBounds := by
  have hn := read_cstr text
  obtain ⟨hle, -⟩ := headerEnd_le hn hi
  rw [enterSection_eq hn hsec hi, if_pos hpre, le_antisymm hle hend, skipWhile, drop_cstr]
  rfl

lemma parseStep_fault (h : advance sec buf c = .error .outOfBounds) :
    parseStep sec key buf c = .error .outOfBounds := by
  rw [parseStep, h, error_bind]

lemma parseFile_fault (hsec : strlenPos sec) (hkey : strlenPos key)
    (h : Loop.Reaches (parseStep sec key buf) (.outer 0) c)
    (hc : advance sec buf c = .error .outOfBounds) :
    parseFile sec key buf = .error .outOfBounds := by
  have hrun := Loop.run_of_reaches_fault toGo_parseStep h (parseStep_fault hc) (2 * buf.length + 2)
    (by simp only [Cursor.toGo]; omega)
  exact parseFile_eq_error hsec hkey hrun

/-- As long as no line of the section sets the key, `parse_file` goes where the scan does. -/
lemma reaches_of_scans (hnul : nul ∉ key) (hno : ¬ KeyMet sec key text)
    (hscan : Scans sec (cstr text) ls c) :
    Loop.Reaches (parseStep sec key (cstr text)) (.outer 0) c := by
  refine reaches_iff_scans.2 ⟨ls, hscan, fun l hl => ?_⟩
  rw [matchLine_eq_none_iff hnul (isLine_of_scans hscan l hl)]
  intro set hset hpre
  obtain ⟨pre, post, hls⟩ := List.append_of_mem hl
  obtain ⟨d, hd, hadv⟩ := hscan.of_append hls
  exact hno ⟨pre, d, l, hd, hadv, set, hset, hpre⟩

lemma length_cstr (text : Text) : (cstr text).length = text.length + 1 := by
  rw [cstr, List.length_append, List.length_singleton]

/-- If no line of the section sets the key, the scan faults unless all of them end and all the
headers are closed. -/
lemma ended_of_inside (hsec : nul ∉ sec) (hpos : strlenPos sec) (hkey : strlenPos key)
    (hnul : nul ∉ key) (hno : ¬ KeyMet sec key text)
    (h : parseFile sec key (cstr text) ≠ .error .outOfBounds) : Ended sec text := by
  have hn := read_cstr text
  have hlen := length_cstr text
  constructor
  · -- from a line that ends with the terminator the scan goes one too far
    intro ls c l hscan hl
    by_contra hlt
    obtain ⟨-, hskip⟩ := advance_eq_line hl
    have hbounds := skipWhile_bounds hskip
    have hi : l.i = text.length := by omega
    have hbehind := advance_behind sec text l.secS l.secE
    rw [← hi] at hbehind
    exact h (parseFile_fault hpos hkey (reaches_of_scans hnul hno (hscan.line hl)) hbehind)
  · -- so it does from a header that is not closed
    intro ls i hscan hheader hpre
    by_contra hlt
    have hi : i < text.length := by
      refine lt_of_headerLine hn ?_ hheader
      have := lt_length_of_read hheader.2
      omega
    have hbehind := enterSection_behind hsec hi hpre (Nat.le_of_not_lt hlt)
    rw [← advance_headerLine hheader] at hbehind
    exact h (parseFile_fault hpos hkey (reaches_of_scans hnul hno hscan) hbehind)

/-- If all of them end, the scan comes to its end in the text. -/
lemma exists_parseFile_of_ended (hsec : nul ∉ sec) (hpos : strlenPos sec) (hkey : strlenPos key)
    (hnul : nul ∉ key) (hended : Ended sec text) :
    ∃ r, parseFile sec key (cstr text) = .ok r := by
  have hrun : ∃ r, Loop.run (parseStep sec key (cstr text)) (2 * (cstr text).length + 2)
      (.outer 0) = .ok (some r) := by
    refine Loop.exists_run toGo_parseStep ?_ _ (by simp only [Cursor.toGo]; omega)
    intro c hc
    obtain ⟨ls, hscan, -⟩ := reaches_iff_scans.1 hc
    exact exists_parseStep_of_scans hsec hnul hended hscan
  obtain ⟨r, hr⟩ := hrun
  exact ⟨r, parseFile_eq_ok hpos hkey hr⟩

/-- A line that sets the key is found before the end of the memory. -/
lemma exists_parseFile_of_keyMet (hpos : strlenPos sec) (hkey : strlenPos key)
    (hnul : nul ∉ key) (hmet : KeyMet sec key text) :
    ∃ r, parseFile sec key (cstr text) = .ok r := by
  obtain ⟨ls, c, l, hscan, hl, hbegins⟩ := hmet
  obtain ⟨l', -, set, hfirst⟩ := exists_firstMatch hscan hl hbegins
  exact ⟨_, (parseFile_eq_some_iff_firstMatch hpos hkey hnul).2 ⟨l', set, hfirst, rfl⟩⟩

/-- With what it needs in its text, `parse_file` does not depend on what follows. -/
lemma staysInside_of_eq_ok {r : Option Spans} (h : parseFile sec key (cstr text) = .ok r) :
    StaysInside sec key text := by
  have hext : ∀ rest, parseFile sec key (text ++ nul :: rest) = .ok r := fun rest =>
    parseFile_extends ⟨rest, by simp [cstr]⟩ r h
  exact ⟨by simp [h], fun rest rest' => (hext rest).trans (hext rest').symm⟩

/-- `parse_file` stays in its text if and only if the section is empty, a line that the scan meets
has a key that begins the requested one, or all these lines end with newlines and all the headers
that begin the section's name are closed. -/
theorem staysInside_iff_scans (hsec : nul ∉ sec) (hkey : strlenPos key) (hnul : nul ∉ key) :
    StaysInside sec key text ↔ (strlenPos sec → KeyMet sec key text ∨ Ended sec text) := by
  constructor
  · intro h hpos
    by_cases hmet : KeyMet sec key text
    · exact Or.inl hmet
    · exact Or.inr (ended_of_inside hsec hpos hkey hnul hmet h.inside)
  · intro h
    by_cases hpos : strlenPos sec = true
    · have hr : ∃ r, parseFile sec key (cstr text) = .ok r := by
        rcases h hpos with hmet | hended
        · exact exists_parseFile_of_keyMet hpos hkey hnul hmet
        · exact exists_parseFile_of_ended hsec hpos hkey hnul hended
      obtain ⟨r, hr⟩ := hr
      exact staysInside_of_eq_ok hr
    · have hassert : ∀ buf, parseFile sec key buf = .error .assertFailed := fun buf =>
        parseFile_assertFailed (Bool.eq_false_iff.2 hpos)
      exact ⟨by simp [hassert], fun rest rest' => (hassert _).trans (hassert _).symm⟩

/-- A file that leaves no room but for one terminator makes `read_profile_string` read outside its
buffer, if its last line is such a line. -/
theorem readProfileString_behind {value : Text} {size : ℕ} (hlen : text.length = 10239)
    (heof : eofChar ∉ text) (hsec : nul ∉ sec) (hpos : strlenPos sec) (hkey : strlenPos key)
    (hnul : nul ∉ key) (hsize : 0 < size) (hno : ¬ KeyMet sec key text) (hopen : ¬ Ended sec text) :
    readProfileString sec key value size (some text) = .error .outOfBounds := by
  have hbuf : bufferOf text = cstr text := by
    rw [bufferOf_of_notMem heof, hlen]
    rfl
  have hload : loadIniFile (some text) = .ok (some (cstr text)) := by
    rw [loadIniFile_some, takeWhile_eofChar_eq_iff.2 heof, hlen, if_pos (by decide), hbuf]
  have hfault : parseFile sec key (cstr text) = .error .outOfBounds := by
    by_contra h
    exact hopen (ended_of_inside hsec hpos hkey hnul hno h)
  rw [readProfileString_of_load hpos hkey hsize hload, hfault, error_bind]

end Conf
