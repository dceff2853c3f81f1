import Gb28181.Sip.Recovery

/-!
# Headers over several lines

The value of a header that has no parser of its own may be continued on lines that begin with a
blank.  The loop of `parse_generic_string_hdr` puts two lines together and then starts again, so
that only the last one or two lines are left of more than two (`lastLines_eq_iff`).
-/

namespace Sip.Wire

open Lib Lib.Scan

variable {H : Type} {others : Others H} {s text f g : Text} {lines : List Text} {c : Char}

/-- The text begins with something that can be seen. -/
def Visible (text : Text) : Prop := ∃ c v, text = c :: v ∧ 32 < c.toNat

lemma Visible.append (h : Visible text) (s : Text) : Visible (text ++ s) := by
  obtain ⟨c, v, rfl, hc⟩ := h
  exact ⟨c, v ++ s, rfl, hc⟩

lemma Visible.ne_nil (h : Visible text) : text ≠ [] := by
  obtain ⟨c, v, rfl, -⟩ := h
  exact List.cons_ne_nil c v

/-- The lines of a value. -/
def foldedText : List Text → Text
  | [] => []
  | [f] => f
  | f :: lines => f ++ '\r' :: '\n' :: ' ' :: foldedText lines

/-- What is read of the lines. -/
def lastLines : List Text → Text
  | [] => []
  | [f] => f
  | [f, g] => f ++ ' ' :: g
  | _ :: _ :: lines => lastLines lines

/-- The value that the lines stand for. -/
def unfolded : List Text → Text
  | [] => []
  | [f] => f
  | f :: lines => f ++ ' ' :: unfolded lines

/-- A line of a value. -/
def ValueLine (f : Text) : Prop := Visible f ∧ ∀ c ∈ f, notNewline c = true

/-! ### The loop -/

lemma autoskip_continued (h : Visible s) :
    autoskip true ('\r' :: '\n' :: ' ' :: s) = s := by
  obtain ⟨c, v, rfl, hc⟩ := h
  have hspace : isSpace c = false := by
    rw [Bool.eq_false_iff]
    intro hc'
    rw [isSpace, Bool.or_eq_true, beq_iff_eq, beq_iff_eq] at hc'
    rcases hc' with rfl | rfl <;> exact absurd hc (by decide)
  have hdrop : (' ' :: c :: v).dropWhile isSpace = c :: v := by
    rw [List.dropWhile_cons_of_pos rfl, List.dropWhile_cons_of_neg (by simp [hspace])]
  exact hdrop

/-- A line, up to what comes after its end. -/
lemma reads_valueLine (hf : ValueLine f) {t : Text}
    (hskip : autoskip true ('\r' :: '\n' :: s) = t) :
    Reads (scanGet true notNewline) (f ++ '\r' :: '\n' :: s) f t :=
  Reads.scanGet_skip hf.1.ne_nil hf.2 rfl hskip

/-- What the loop does with one or two lines. -/
abbrev genericBody (_ : Text) : Parser Text := do
  let hvalue ← scanGet true notNewline
  if (← isEof) || isNewline (← curChar) then return hvalue
  else
    let next ← scanGet true notNewline
    return hvalue ++ ' ' :: next

lemma reads_genericBody_one (hf : ValueLine f) (hs : isSpace (cur s) = false) (x : Text) :
    Reads (genericBody x) (f ++ '\r' :: '\n' :: s) f ('\r' :: '\n' :: s) := by
  refine (reads_valueLine hf (settled_crlf hs)).bind ((Reads.isEof _).bind ?_)
  exact (Reads.curChar _).bind (.pure _ _)

lemma reads_genericBody_two (hf : ValueLine f) (hg : ValueLine g) {t : Text}
    (hskip : autoskip true ('\r' :: '\n' :: s) = t) (x : Text) :
    Reads (genericBody x) (f ++ '\r' :: '\n' :: ' ' :: (g ++ '\r' :: '\n' :: s))
      (f ++ ' ' :: g) t := by
  have hvisible := hg.1.append ('\r' :: '\n' :: s)
  refine (reads_valueLine hf (autoskip_continued hvisible)).bind ((Reads.isEof _).bind ?_)
  refine (Reads.curChar _).bind ?_
  have hstop : ((g ++ '\r' :: '\n' :: s).isEmpty || isNewline (cur (g ++ '\r' :: '\n' :: s))) =
      false := by
    obtain ⟨⟨c, v, rfl, -⟩, hall⟩ := hg
    have hc := hall c List.mem_cons_self
    show isNewline c = false
    rw [Bool.eq_false_iff]
    intro hnewline
    rw [isNewline, Bool.or_eq_true, beq_iff_eq, beq_iff_eq] at hnewline
    rcases hnewline with rfl | rfl <;> exact absurd hc (by decide)
  rw [hstop, if_neg Bool.false_ne_true]
  exact (reads_valueLine hg hskip).bind (.pure _ _)

lemma notNewline_cur (hf : ValueLine f) (s : Text) : notNewline (cur (f ++ s)) = true := by
  obtain ⟨⟨c, v, rfl, -⟩, hall⟩ := hf
  exact hall c List.mem_cons_self

/-- The loop takes the lines two by two. -/
lemma loops_generic (hs : isSpace (cur s) = false) : ∀ (lines : List Text) (x : Text),
    lines ≠ [] → (∀ f ∈ lines, ValueLine f) →
      Loops (fun s => notNewline (cur s)) genericBody x (foldedText lines ++ '\r' :: '\n' :: s)
        (lastLines lines) ('\r' :: '\n' :: s)
  | [], _, hne, _ => absurd rfl hne
  | [f], x, _, h => by
    have hf := h f (by simp)
    have hlen := List.length_pos_iff.2 hf.1.ne_nil
    refine .step (notNewline_cur hf _) (reads_genericBody_one hf hs x) ?_ (.done rfl)
    simp only [foldedText, List.length_append, List.length_cons]
    omega
  | [f, g], x, _, h => by
    have hf := h f (by simp)
    have hg := h g (by simp)
    have htext : foldedText [f, g] ++ '\r' :: '\n' :: s =
        f ++ '\r' :: '\n' :: ' ' :: (g ++ '\r' :: '\n' :: s) := by simp [foldedText]
    rw [htext]
    refine .step (notNewline_cur hf _) (reads_genericBody_two hf hg (settled_crlf hs) x) ?_
      (.done rfl)
    simp only [List.length_append, List.length_cons]
    omega
  | f :: g :: k :: lines, x, _, h => by
    have hf := h f (by simp)
    have hg := h g (by simp)
    have hk : Visible (foldedText (k :: lines) ++ '\r' :: '\n' :: s) := by
      have hvisible := (h k (by simp)).1
      cases lines with
      | nil => exact hvisible.append _
      | cons l lines => exact (hvisible.append _).append _
    have htext : foldedText (f :: g :: k :: lines) ++ '\r' :: '\n' :: s =
        f ++ '\r' :: '\n' :: ' ' :: (g ++ '\r' :: '\n' :: ' ' ::
          (foldedText (k :: lines) ++ '\r' :: '\n' :: s)) := by simp [foldedText]
    have htail := loops_generic hs (k :: lines) (f ++ ' ' :: g) (List.cons_ne_nil _ _)
      fun f' hf' => h f' (List.mem_cons_of_mem _ (List.mem_cons_of_mem _ hf'))
    rw [htext]
    refine .step (notNewline_cur hf _) (reads_genericBody_two hf hg (autoskip_continued hk) x) ?_
      htail
    simp only [List.length_append, List.length_cons]
    omega

/-- What is read of a value over several lines. -/
lemma reads_genericStringHdr (hs : isSpace (cur s) = false) (hne : lines ≠ [])
    (h : ∀ f ∈ lines, ValueLine f) :
    Reads parseGenericStringHdr (foldedText lines ++ '\r' :: '\n' :: s) (lastLines lines) s := by
  have hend : Reads parseHdrEnd ('\r' :: '\n' :: s) () s :=
    (Reads.isEof _).bind ((Reads.curChar _).bind (Reads.scanGetNewline s))
  exact (loops_generic hs lines [] hne h).reads_loop.bind (hend.bind (.pure _ _))

/-! ### What is left of the value -/

lemma length_lastLines_le : ∀ lines : List Text, (lastLines lines).length ≤ (unfolded lines).length
  | [] => Nat.le_refl _
  | [_] => Nat.le_refl _
  | [_, _] => Nat.le_refl _
  | f :: g :: k :: lines => by
    have hle := length_lastLines_le (k :: lines)
    simp only [lastLines, unfolded, List.length_append, List.length_cons] at hle ⊢
    omega

/-- The whole value is left of at most two lines. -/
lemma lastLines_eq_iff : ∀ lines : List Text, lastLines lines = unfolded lines ↔ lines.length ≤ 2
  | [] => by simp [lastLines, unfolded]
  | [_] => by simp [lastLines, unfolded]
  | [_, _] => by simp [lastLines, unfolded]
  | f :: g :: k :: lines => by
    have hle := length_lastLines_le (k :: lines)
    constructor
    · intro heq
      have hlen := congrArg List.length heq
      simp only [lastLines, unfolded, List.length_append, List.length_cons] at hle hlen
      omega
    · intro hlen
      simp only [List.length_cons] at hlen
      omega

end Sip.Wire
