import Mathlib.Data.List.TakeWhile

/-!
# Frames in a stream

A stream reaches its receiver in pieces, which may end anywhere.  The receiver gathers them in a
buffer, passes over the elements between the frames, and takes a frame out as soon as it is
complete; what is left waits for the next piece.  If every frame is found exactly when it is there
and fits into the buffer, the receiver takes out the frames of the stream, whatever the pieces are
(`frames_receive`).
-/

namespace Lib.Framing

variable {α : Type} {find : List α → Option ℕ} {skip : α → Bool} {limit n : ℕ}

/-- What is taken out of a buffer, what is left in it, and whether it was full without a frame. -/
structure Drained (α : Type) where
  frames : List (List α)
  rest : List α
  overflow : Bool

/-- The frames are taken out one after the other; a full buffer without one is emptied. -/
def drain (find : List α → Option ℕ) (skip : α → Bool) (limit : ℕ) : ℕ → List α → Drained α
  | 0, buf => ⟨[], buf, false⟩
  | n + 1, buf =>
    let buf := buf.dropWhile skip
    if buf.isEmpty then ⟨[], [], false⟩
    else
      match find buf with
      | none => if buf.length = limit then ⟨[], [], true⟩ else ⟨[], buf, false⟩
      | some size =>
        let drained := drain find skip limit n (buf.drop size)
        { drained with frames := buf.take size :: drained.frames }

/-- The receiver with its history: the frames that it has taken out, and whether it has ever thrown
its buffer away. -/
structure Receiver (α : Type) where
  buf : List α := []
  frames : List (List α) := []
  overflow : Bool := false

/-- A piece arrives. -/
def Receiver.read (find : List α → Option ℕ) (skip : α → Bool) (limit : ℕ) (r : Receiver α)
    (piece : List α) : Receiver α :=
  let drained := drain find skip limit (r.buf ++ piece).length (r.buf ++ piece)
  ⟨drained.rest, r.frames ++ drained.frames, r.overflow || drained.overflow⟩

/-- The pieces arrive. -/
def Receiver.receive (find : List α → Option ℕ) (skip : α → Bool) (limit : ℕ) (r : Receiver α)
    (pieces : List (List α)) : Receiver α :=
  pieces.foldl (Receiver.read find skip limit) r

/-! ### Streams -/

/-- A frame: it begins with an element that is not passed over, and it is found as soon as it is
complete, whatever follows it, and not before. -/
structure IsFrame (find : List α → Option ℕ) (skip : α → Bool) (x : List α) : Prop where
  starts : ∃ a v, x = a :: v ∧ skip a = false
  found : ∀ s, find (x ++ s) = some x.length
  notBefore : ∀ y t, x = y ++ t → t ≠ [] → find y = none

/-- A frame with what is passed over before it. -/
structure Item (α : Type) where
  gap : List α
  frame : List α

/-- The stream of some frames, and what is passed over after them. -/
def streamOf (items : List (Item α)) (gap : List α) : List α :=
  items.flatMap (fun i => i.gap ++ i.frame) ++ gap

/-- The stream has frames that fit into the buffer. -/
structure IsStream (find : List α → Option ℕ) (skip : α → Bool) (limit : ℕ)
    (items : List (Item α)) (gap : List α) : Prop where
  gaps : ∀ i ∈ items, ∀ a ∈ i.gap, skip a = true
  frames : ∀ i ∈ items, IsFrame find skip i.frame ∧ i.frame.length ≤ limit
  gap : ∀ a ∈ gap, skip a = true

variable {items : List (Item α)} {gap w rest x : List α} {r : Receiver α}

lemma streamOf_cons (i : Item α) : streamOf (i :: items) gap =
    i.gap ++ (i.frame ++ streamOf items gap) := by
  simp [streamOf]

lemma IsStream.tail {i : Item α} (h : IsStream find skip limit (i :: items) gap) :
    IsStream find skip limit items gap where
  gaps := fun j hj => h.gaps j (List.mem_cons_of_mem _ hj)
  frames := fun j hj => h.frames j (List.mem_cons_of_mem _ hj)
  gap := h.gap

/-- Some of what stands before the first frame has been passed over. -/
lemma IsStream.skipped {i : Item α} (h : IsStream find skip limit (i :: items) gap) {g : List α}
    (hg : ∀ a ∈ g, skip a = true) : IsStream find skip limit (⟨g, i.frame⟩ :: items) gap where
  gaps := by
    intro j hj
    rcases List.mem_cons.1 hj with rfl | hj
    · exact hg
    · exact h.gaps j (List.mem_cons_of_mem _ hj)
  frames := by
    intro j hj
    rcases List.mem_cons.1 hj with rfl | hj
    · exact h.frames i List.mem_cons_self
    · exact h.frames j (List.mem_cons_of_mem _ hj)
  gap := h.gap

/-- What the receiver still has to take out, after some frames. -/
structure Left (find : List α → Option ℕ) (skip : α → Bool) (limit : ℕ) (items : List (Item α))
    (rest : List α) (d : Drained α) : Prop where
  left : ∃ items' gap', IsStream find skip limit items' gap' ∧
    d.frames ++ items'.map Item.frame = items.map Item.frame ∧
    d.rest ++ rest = streamOf items' gap' ∧ (rest = [] → items' = [])
  overflow : d.overflow = false
  room : d.rest = [] ∨ d.rest.length < limit

lemma dropWhile_of_all (h : ∀ a ∈ w, skip a = true) : w.dropWhile skip = [] :=
  List.dropWhile_eq_nil_iff.2 h

/-- A buffer with nothing but what is passed over. -/
lemma left_of_skipped {items' : List (Item α)} {gap' : List α}
    (h : IsStream find skip limit items' gap') (hframes : items'.map Item.frame =
      items.map Item.frame) (hrest : rest = streamOf items' gap') (hend : rest = [] → items' = []) :
    Left find skip limit items rest ⟨[], [], false⟩ where
  left := ⟨items', gap', h, hframes, hrest, hend⟩
  overflow := rfl
  room := Or.inl rfl

lemma IsFrame.ne_nil (h : IsFrame find skip x) : x ≠ [] := by
  obtain ⟨a, v, rfl, -⟩ := h.starts
  exact List.cons_ne_nil a v

/-- The first frame of a stream is complete in a buffer, or the buffer ends in it. -/
lemma complete_or_not {v s : List α} (h : x ++ s = v ++ rest) :
    (∃ d, v = x ++ d ∧ s = d ++ rest) ∨ ∃ t, t ≠ [] ∧ x = v ++ t ∧ rest = t ++ s := by
  rcases List.append_eq_append_iff.1 h with ⟨d, hv, hs⟩ | ⟨t, hx, hrest⟩
  · exact Or.inl ⟨d, hv, hs⟩
  · by_cases ht : t = []
    · subst ht
      exact Or.inl ⟨[], by simpa using hx.symm, by simpa using hrest.symm⟩
    · exact Or.inr ⟨t, ht, hx, hrest⟩

/-- A stream with a frame does not end before the frame does. -/
lemma streamOf_ne_nil {i : Item α} (h : IsStream find skip limit (i :: items) gap) :
    streamOf (i :: items) gap ≠ [] := by
  intro hnil
  rw [streamOf_cons] at hnil
  have hframe := (List.append_eq_nil_iff.1 (List.append_eq_nil_iff.1 hnil).2).1
  exact (h.frames i List.mem_cons_self).1.ne_nil hframe

lemma items_eq_nil (h : IsStream find skip limit items gap) (hnil : streamOf items gap = []) :
    items = [] := by
  cases items with
  | nil => rfl
  | cons i items => exact absurd hnil (streamOf_ne_nil h)

/-- The buffer ends before the next frame, and nothing of it is kept. -/
lemma left_of_gap {items' : List (Item α)} {gap' : List α}
    (h : IsStream find skip limit items' gap') (hframes : items'.map Item.frame =
      items.map Item.frame) (hrest : rest = streamOf items' gap')
    (hw : ∀ a ∈ w, skip a = true) :
    Left find skip limit items rest (drain find skip limit (n + 1) w) := by
  rw [drain, dropWhile_of_all hw]
  exact left_of_skipped h hframes hrest fun hnil => items_eq_nil h (hrest.symm.trans hnil)

/-- The buffer ends in a frame, and waits for the rest of it. -/
lemma left_of_incomplete {v t : List α} (h : IsStream find skip limit (⟨[], x⟩ :: items) gap)
    (hdrop : w.dropWhile skip = v) (hv : v ≠ []) (ht : t ≠ []) (hx : x = v ++ t)
    (hrest : rest = t ++ streamOf items gap) :
    Left find skip limit (⟨[], x⟩ :: items) rest (drain find skip limit (n + 1) w) := by
  obtain ⟨hframe, hlimit⟩ := h.frames _ List.mem_cons_self
  have hfind : find v = none := hframe.notBefore v t hx ht
  have hshort : v.length < limit := by
    have hpos := List.length_pos_iff.2 ht
    have hlen : v.length + t.length ≤ limit := by
      rw [← List.length_append, ← hx]
      exact hlimit
    omega
  have hempty : v.isEmpty = false := by rwa [List.isEmpty_eq_false_iff]
  simp only [drain, hdrop, hempty, Bool.false_eq_true, if_false, hfind, Nat.ne_of_lt hshort]
  refine ⟨⟨_, gap, h, rfl, ?_, fun hnil => ?_⟩, rfl, Or.inr hshort⟩
  · rw [streamOf_cons, hrest, hx]
    simp
  · rw [hnil] at hrest
    exact absurd (List.append_eq_nil_iff.1 hrest.symm).1 ht

/-- The first frame is complete: it is taken out, and what follows it is next. -/
lemma left_of_complete {d : List α} {i : Item α} (hframe : IsFrame find skip i.frame)
    (hdrop : w.dropWhile skip = i.frame ++ d)
    (h : Left find skip limit items rest (drain find skip limit n d)) :
    Left find skip limit (i :: items) rest (drain find skip limit (n + 1) w) := by
  obtain ⟨⟨items', gap', h', hframes, hleft, hend⟩, hover, hroom⟩ := h
  have hempty : (i.frame ++ d).isEmpty = false := by
    rw [List.isEmpty_eq_false_iff]
    exact List.append_ne_nil_of_left_ne_nil hframe.ne_nil d
  simp only [drain, hdrop, hempty, Bool.false_eq_true, if_false, hframe.found d, List.take_left,
    List.drop_left]
  exact ⟨⟨items', gap', h', congrArg (i.frame :: ·) hframes, hleft, hend⟩, hover, hroom⟩

/-- What is left of a buffer that has reached a frame begins with the frame. -/
lemma dropWhile_of_reached {v s : List α} (hgap : ∀ a ∈ gap, skip a = true)
    (hframe : IsFrame find skip x) (hw : w = gap ++ v) (hv : v ≠ []) (h : x ++ s = v ++ rest) :
    w.dropWhile skip = v := by
  obtain ⟨a, u, rfl, ha⟩ := hframe.starts
  obtain ⟨b, v, rfl⟩ := List.exists_cons_of_ne_nil hv
  rw [List.cons_append, List.cons_append, List.cons.injEq] at h
  obtain ⟨rfl, -⟩ := h
  rw [hw, List.dropWhile_append_of_pos hgap, List.dropWhile_cons_of_neg (by simp [ha])]

/-- One buffer, by induction on its length: the case that the first frame is complete goes on with
what follows it. -/
lemma left_drain (h : IsStream find skip limit items gap) (hw : w ++ rest = streamOf items gap)
    (hn : w.length ≤ n) : Left find skip limit items rest (drain find skip limit n w) := by
  induction n generalizing w items with
  | zero =>
    obtain rfl := List.length_eq_zero_iff.1 (Nat.le_zero.1 hn)
    rw [List.nil_append] at hw
    exact left_of_skipped h rfl hw fun hnil => items_eq_nil h (hw.symm.trans hnil)
  | succ n ih =>
    cases items with
    | nil =>
      have hall : ∀ a ∈ w ++ rest, skip a = true := fun a ha =>
        h.gap a (by simpa [streamOf, hw] using ha)
      have hrest : IsStream find skip limit [] rest :=
        ⟨by simp, by simp, fun a ha => hall a (List.mem_append_right _ ha)⟩
      exact left_of_gap hrest rfl rfl fun a ha => hall a (List.mem_append_left _ ha)
    | cons i items =>
      have hgap : ∀ a ∈ i.gap, skip a = true := h.gaps i List.mem_cons_self
      obtain ⟨hframe, -⟩ := h.frames i List.mem_cons_self
      rw [streamOf_cons] at hw
      rcases List.append_eq_append_iff.1 hw with ⟨g, hg, hrest⟩ | ⟨v, hv, htail⟩
      · -- the buffer ends before the frame
        rw [hg] at hgap
        refine left_of_gap (h.skipped (g := g) fun a ha => ?_) rfl ?_ fun a ha => ?_
        · exact hgap a (List.mem_append_right _ ha)
        · rw [hrest, streamOf_cons]
        · exact hgap a (List.mem_append_left _ ha)
      have hskipped : IsStream find skip limit (⟨[], i.frame⟩ :: items) gap := h.skipped (by simp)
      by_cases hnil : v = []
      · -- it ends where the frame begins
        subst hnil
        refine left_of_gap hskipped rfl (by rw [streamOf_cons]; exact htail.symm) ?_
        rw [hv, List.append_nil]
        exact hgap
      · -- the frame has begun
        have hdrop := dropWhile_of_reached hgap hframe hv hnil htail
        rcases complete_or_not htail with ⟨d, hd, hstream⟩ | ⟨t, ht, hx, hrest⟩
        · have hlen : d.length ≤ n := by
            have hpos := List.length_pos_iff.2 hframe.ne_nil
            rw [hv, hd, List.length_append, List.length_append] at hn
            omega
          rw [hd] at hdrop
          exact left_of_complete hframe hdrop (ih h.tail hstream.symm hlen)
        · obtain ⟨hleft, hover, hroom⟩ := left_of_incomplete hskipped hdrop hnil ht hx hrest
          exact ⟨hleft, hover, hroom⟩

/-! ### All pieces -/

/-- The receiver is where it should be: what it has in its buffer and what is still to come is the
stream of the frames that it has not taken out, and there is room for more. -/
structure Gathers (find : List α → Option ℕ) (skip : α → Bool) (limit : ℕ) (xs : List (List α))
    (rest : List α) (r : Receiver α) : Prop where
  left : ∃ items gap, IsStream find skip limit items gap ∧
    r.frames ++ items.map Item.frame = xs ∧ r.buf ++ rest = streamOf items gap
  overflow : r.overflow = false
  room : r.buf = [] ∨ r.buf.length < limit

/-- A piece keeps it there; after the last one nothing is left to take out. -/
lemma gathers_read {xs : List (List α)} {piece : List α}
    (h : Gathers find skip limit xs (piece ++ rest) r) :
    Gathers find skip limit xs rest (r.read find skip limit piece) ∧
      (rest = [] → (r.read find skip limit piece).frames = xs) := by
  obtain ⟨⟨items, gap, hstream, hframes, hbuf⟩, hover, -⟩ := h
  rw [← List.append_assoc] at hbuf
  obtain ⟨⟨items', gap', hstream', hframes', hbuf', hend⟩, hover', hroom⟩ :=
    left_drain hstream hbuf (Nat.le_refl _)
  have hall : (r.read find skip limit piece).frames ++ items'.map Item.frame = xs := by
    show (r.frames ++ _) ++ _ = xs
    rw [List.append_assoc, hframes', hframes]
  refine ⟨⟨⟨items', gap', hstream', hall, hbuf'⟩, ?_, hroom⟩, fun hnil => ?_⟩
  · show (r.overflow || _) = false
    rw [hover, hover']
    rfl
  · rw [hend hnil, List.map_nil, List.append_nil] at hall
    exact hall

lemma gathers_receive {xs : List (List α)} (pieces : List (List α))
    (h : Gathers find skip limit xs (pieces.flatten ++ rest) r) :
    Gathers find skip limit xs rest (r.receive find skip limit pieces) := by
  induction pieces generalizing r with
  | nil => exact h
  | cons piece pieces ih =>
    rw [List.flatten_cons, List.append_assoc] at h
    exact ih (gathers_read h).1

lemma gathers_start (h : IsStream find skip limit items gap) :
    Gathers find skip limit (items.map Item.frame) (streamOf items gap) {} :=
  ⟨⟨items, gap, h, rfl, rfl⟩, rfl, Or.inl rfl⟩

/-- Whatever the pieces are, the buffer has room for more as long as the stream goes on. -/
theorem room_receive (h : IsStream find skip limit items gap) {pieces : List (List α)}
    (hpieces : pieces.flatten ++ rest = streamOf items gap) :
    (Receiver.receive find skip limit {} pieces).overflow = false ∧
      ((Receiver.receive find skip limit {} pieces).buf = [] ∨
        (Receiver.receive find skip limit {} pieces).buf.length < limit) := by
  have hstart := gathers_start h
  rw [← hpieces] at hstart
  obtain ⟨-, hover, hroom⟩ := gathers_receive pieces hstart
  exact ⟨hover, hroom⟩

/-- The frames of a stream are taken out in order, each once, whatever the pieces are. -/
theorem frames_receive (h : IsStream find skip limit items gap) {pieces : List (List α)}
    (hpieces : pieces.flatten = streamOf items gap) :
    (Receiver.receive find skip limit {} pieces).frames = items.map Item.frame := by
  rcases List.eq_nil_or_concat pieces with rfl | ⟨pieces', piece, rfl⟩
  · rw [items_eq_nil h hpieces.symm]
    rfl
  · have hstart := gathers_start h
    have hflat : pieces'.flatten ++ (piece ++ []) = streamOf items gap := by
      rw [← hpieces]
      simp
    rw [← hflat] at hstart
    have hlast := (gathers_read (gathers_receive pieces' hstart)).2 rfl
    rw [Receiver.receive, List.concat_eq_append, List.foldl_append]
    exact hlast

end Lib.Framing
