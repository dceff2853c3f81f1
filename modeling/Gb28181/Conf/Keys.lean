import Gb28181.Conf.ParseFile

/-!
# The key that is found

What the key of a line has to do with the requested one.  The comparison is as long as the key of
the line, so a line whose key only begins the requested one is reported as well; the first line that
is met and begins it is the one that is reported (`exists_firstMatch`).
-/

namespace Conf

open Lib

variable {sec key buf : Text} {c c' : Cursor} {l l' : LineAt} {ls : List LineAt}

/-- The key of a line: what is before the `=`, without the blanks at its end. -/
def keyOf (line : Text) : Text := (line.takeWhile (· != '=')).rdropWhile blank

/-- The line sets exactly this key, up to case. -/
def HasKey (key line : Text) : Prop :=
  line.head? ≠ some '#' ∧ '=' ∈ line ∧ fold (keyOf line) = fold key

/-- The key of the line begins the requested one, up to case: all that `parse_file` compares. -/
def BeginsKey (key line : Text) : Prop :=
  ∃ set ∈ settingOf line, fold set.key <+: fold key

/-! ### The key of a line -/

/-- A line that was passed was met by a scan of the lines above it. -/
lemma Scans.of_append {pre post : List LineAt} (h : Scans sec buf ls c)
    (hls : ls = pre ++ l :: post) :
    ∃ d, Scans sec buf pre d ∧ advance sec buf d = .ok (.line l) := by
  induction h generalizing post with
  | start => simp at hls
  | goto _ _ ih => exact ih hls
  | @line ls c l' hscan hl ih =>
    -- the line that was passed last, or one before
    rcases List.eq_nil_or_concat' post with rfl | ⟨post, x, rfl⟩
    · obtain ⟨rfl, hsing⟩ := List.append_inj' hls rfl
      obtain rfl := List.singleton_inj.1 hsing
      exact ⟨c, hscan, hl⟩
    · have happ : pre ++ l :: (post ++ [x]) = (pre ++ l :: post) ++ [x] := by simp
      rw [happ] at hls
      exact ih (List.append_inj' hls rfl).1

/-- Among the lines that are met there is a first one that begins the key, if there is one. -/
lemma exists_firstMatch (hscan : Scans sec buf ls c) (hl : advance sec buf c = .ok (.line l))
    (h : BeginsKey key (lineText buf l)) :
    ∃ l' ∈ ls ++ [l], ∃ set, FirstMatch sec key buf l' set := by
  classical
  -- the first of all the lines that are met
  let begins := fun l : LineAt => decide (BeginsKey key (lineText buf l))
  have hsome : ((ls ++ [l]).find? begins).isSome := by
    rw [List.find?_isSome]
    exact ⟨l, List.mem_append_right _ (List.mem_singleton.2 rfl), decide_eq_true h⟩
  obtain ⟨l', hl'⟩ := Option.isSome_iff_exists.1 hsome
  obtain ⟨hbegins, pre, post, hsplit, hpre⟩ := List.find?_eq_some_iff_append.1 hl'
  obtain ⟨set, hset, hprefix⟩ := of_decide_eq_true hbegins
  obtain ⟨d, hscan', hadv⟩ := (hscan.line hl).of_append hsplit
  refine ⟨l', List.mem_of_find?_eq_some hl', set, hset, hprefix, pre, d, hscan', hadv, ?_⟩
  intro x hx set' hset' hprefix'
  have hno := hpre x hx
  rw [Bool.not_eq_true', decide_eq_false_iff_not] at hno
  exact hno ⟨set', hset', hprefix'⟩

end Conf
