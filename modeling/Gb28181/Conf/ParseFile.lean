import Mathlib.Data.List.DropRight
import Gb28181.Conf.ConfReader

/-!
# What `parse_file` finds

`parse_file` always ends (`parseFile_ends`), and on a line of the section that it
scans it compares the requested key with the key of the line only as far as the latter
goes: `matchLine_eq`.
-/

namespace Conf

open Lib

/-! ### The scan ends -/

/-- How far the scan is from the end of the buffer. -/
def Cursor.toGo (length : ℕ) : Cursor → ℕ
  | .outer i => 2 * (length - i)
  | .lines _ _ i => 2 * (length - i) + 1

variable {sec key buf : Text} {c c' : Cursor} {l : LineAt}

/-- What becomes of a header: it is compared up to its end, and a match leads behind the blanks that
follow. -/
lemma enterSection_eq_ok {i : ℕ} {m : Move} (h : enterSection sec buf i = .ok m) :
    ∃ j, skipWhile (fun c => !rightBrace c && !endOfString c) buf (i + 1) = .ok j ∧
      ((∃ e, strncasecmp (buf.drop (i + 1)) (cstr sec) (j - (i + 1)) = .ok 0 ∧
        skipWhile isspace buf (j + 1) = .ok e ∧ m = .goto (.lines (i + 1) e e)) ∨
      m = .goto (.outer j)) := by
  simp only [enterSection, bind_eq_ok] at h
  obtain ⟨j, hj, r, hr, h⟩ := h
  refine ⟨j, hj, ?_⟩
  split at h
  · next hzero =>
    simp only [bind_eq_ok, pure_eq_ok, Except.ok.injEq] at h
    obtain ⟨e, he, rfl⟩ := h
    exact Or.inl ⟨e, hzero ▸ hr, he, rfl⟩
  · exact Or.inr (Except.ok.inj h).symm

lemma enterSection_ne_line {i : ℕ} : enterSection sec buf i ≠ .ok (.line l) := by
  intro h
  obtain ⟨j, -, ⟨e, -, -, hm⟩ | hm⟩ := enterSection_eq_ok h <;> exact Move.noConfusion hm

/-- What a step of the scan can be. -/
inductive Advances (sec buf : Text) : Cursor → Move → Prop
  | stop (i : ℕ) : Advances sec buf (.outer i) .stop
  | header {i : ℕ} {m : Move} (hstart : atLineStart buf i = .ok true)
      (hread : read buf i = .ok '[') (h : enterSection sec buf i = .ok m) :
      Advances sec buf (.outer i) m
  | next {i : ℕ} (hi : i < buf.length) : Advances sec buf (.outer i) (.goto (.outer (i + 1)))
  | leave (secS secE : ℕ) {i : ℕ} (hi : i < buf.length) :
      Advances sec buf (.lines secS secE i) (.goto (.outer i))
  | line (secS secE : ℕ) {i j : ℕ} {prev c : Char} (hprev : read buf (i - 1) = .ok prev)
      (hread : read buf i = .ok c)
      (hc : (newline prev && leftBarce c || endOfString c) = false)
      (h : skipWhile (fun c => !newline c && !endOfString c) buf i = .ok j) :
      Advances sec buf (.lines secS secE i) (.line ⟨secS, secE, i, j⟩)

lemma advances_of_eq_ok {m : Move} (h : advance sec buf c = .ok m) : Advances sec buf c m := by
  cases c with
  | outer i =>
    simp only [advance, bind_eq_ok] at h
    obtain ⟨a, ha, h⟩ := h
    split at h
    · obtain rfl := Except.ok.inj h
      exact .stop i
    · obtain ⟨b, hb, hgo⟩ := bind_eq_ok.1 h
      split at hgo
      · next hboth =>
        rw [Bool.and_eq_true, leftBarce, beq_iff_eq] at hboth
        obtain ⟨rfl, rfl⟩ := hboth
        exact .header hb ha hgo
      · obtain rfl := Except.ok.inj hgo
        exact .next (lt_length_of_read ha)
  | lines secS secE i =>
    simp only [advance, bind_eq_ok] at h
    obtain ⟨prev, hprev, a, ha, h⟩ := h
    split at h
    · obtain rfl := Except.ok.inj h
      exact .leave secS secE (lt_length_of_read ha)
    · next hout =>
      obtain ⟨j, hj, h⟩ := bind_eq_ok.1 h
      obtain rfl := Except.ok.inj h
      exact .line secS secE hprev ha (Bool.eq_false_iff.2 hout) hj

/-- The scan moves towards the end of the buffer. -/
lemma toGo_advance_goto (h : advance sec buf c = .ok (.goto c')) :
    c'.toGo buf.length < c.toGo buf.length := by
  cases advances_of_eq_ok h with
  | header hstart hread henter =>
    obtain ⟨j, hj, ⟨e, -, he, hm⟩ | hm⟩ := enterSection_eq_ok henter
    all_goals
      have hij := skipWhile_bounds hj
      obtain rfl := Move.goto.inj hm
      simp only [Cursor.toGo]
    · have hje := skipWhile_bounds he
      omega
    · omega
  | next hi =>
    simp only [Cursor.toGo]
    omega
  | leave secS secE hi =>
    simp only [Cursor.toGo]
    omega

/-- A line is only met at the head of the loop over the lines; it starts there, and it ends
with a newline or with the string. -/
lemma advance_eq_line (h : advance sec buf c = .ok (.line l)) :
    c = .lines l.secS l.secE l.newlineStart ∧
      skipWhile (fun c => !newline c && !endOfString c) buf l.newlineStart = .ok l.i := by
  cases advances_of_eq_ok h with
  | header hstart hread henter => exact absurd henter enterSection_ne_line
  | line secS secE hprev hread hc hj => exact ⟨rfl, hj⟩

lemma parseStep_eq_inl (h : parseStep sec key buf c = .ok (.inl c')) :
    advance sec buf c = .ok (.goto c') ∨
      ∃ l, advance sec buf c = .ok (.line l) ∧ matchLine key buf l = .ok none ∧
        c' = .lines l.secS l.secE (l.i + 1) := by
  simp only [parseStep, bind_eq_ok] at h
  obtain ⟨m, hm, h⟩ := h
  cases m with
  | stop => simp at h
  | goto d =>
    simp only [pure_eq_ok, Except.ok.injEq, Sum.inl.injEq] at h
    exact Or.inl (h ▸ hm)
  | line l =>
    simp only [bind_eq_ok] at h
    obtain ⟨r, hr, h⟩ := h
    cases r with
    | none =>
      simp only [pure_eq_ok, Except.ok.injEq, Sum.inl.injEq] at h
      exact Or.inr ⟨l, hm, hr, h.symm⟩
    | some spans => simp at h

lemma toGo_parseStep (c c' : Cursor) (h : parseStep sec key buf c = .ok (.inl c')) :
    c'.toGo buf.length < c.toGo buf.length := by
  rcases parseStep_eq_inl h with h | ⟨l, hl, -, rfl⟩
  · exact toGo_advance_goto h
  · obtain ⟨rfl, hskip⟩ := advance_eq_line hl
    have := skipWhile_bounds hskip
    simp only [Cursor.toGo]
    omega

/-- `parse_file` never loops for ever: its loops end within the fuel they are given. -/
theorem parseFile_ends (sec key buf : Text) :
    Loop.run (parseStep sec key buf) (2 * buf.length + 2) (.outer 0) ≠ .ok none :=
  Loop.run_ne_none toGo_parseStep _ (by simp only [Cursor.toGo]; omega)

/-! ### What a line sets -/

/-- The key that the scan reads in the text before `=`: blanks at its end are left out, but
its first character never is. -/
def trimKey : Text → Text
  | [] => []
  | c :: s => c :: s.rdropWhile blank

/-- A key with its value. -/
structure Setting where
  key : Text
  value : Text
  deriving DecidableEq, Repr

/-- What a line sets: nothing if it is a comment, has no `=` or starts with it. -/
def settingOf (line : Text) : Option Setting :=
  if line.head? = some '#' then none
  else
    match line.takeWhile (· != '='), line.dropWhile (· != '=') with
    | c :: s, _ :: v => some ⟨trimKey (c :: s), v.dropWhile blank⟩
    | _, _ => none

lemma trimKey_prefix (s : Text) : trimKey s <+: s := by
  cases s with
  | nil => exact List.prefix_rfl
  | cons c s => exact List.cons_prefix_cons.2 ⟨rfl, List.rdropWhile_prefix blank s⟩

lemma trimKey_append_singleton {s : Text} (hs : s ≠ []) (c : Char) :
    trimKey (s ++ [c]) = if blank c then trimKey s else s ++ [c] := by
  obtain ⟨a, s, rfl⟩ := List.exists_cons_of_ne_nil hs
  rw [List.cons_append, trimKey, List.rdropWhile_concat, trimKey]
  split <;> rfl

section KeyLoop

variable {k s : Text} {fuel j valid : ℕ}

/-- The comparison of a key with the key of a line. -/
lemma strncasecmp_trimKey (hkey : nul ∉ key) (hk : nul ∉ k) :
    ∃ r, strncasecmp (cstr key) (k ++ s) (trimKey k).length = .ok r ∧
      (r = 0 ↔ fold (trimKey k) <+: fold key) := by
  obtain ⟨t, ht⟩ := trimKey_prefix k
  have htrim : nul ∉ trimKey k := fun h => hk (ht ▸ List.mem_append_left t h)
  have := strncasecmp_right (t ++ s) [] htrim hkey
  rwa [← List.append_assoc, ht] at this

lemma trimKey_ne_nil (hk : k ≠ []) : trimKey k ≠ [] := by
  obtain ⟨a, t, rfl⟩ := List.exists_cons_of_ne_nil hk
  simp [trimKey]

/-- What the loop reads at `j`, in the key. -/
lemma read_last {pre post : Text} {n : ℕ} (hpre : pre ≠ []) (hdrop : buf.drop n = pre ++ post)
    (hj : j + 1 = n + pre.length) : ∃ c ∈ pre, read buf j = .ok c := by
  obtain ⟨p, a, rfl⟩ := List.eq_nil_or_concat' pre |>.resolve_left hpre
  refine ⟨a, by simp, ?_⟩
  rw [List.append_assoc, List.singleton_append] at hdrop
  have := read_add_length hdrop
  rwa [show n + p.length = j by simp at hj; omega] at this

/-- A step of the inner loop before the `=`. -/
lemma keyLoop_of_ne {c d : Char} (hj : j < l.i) (hc : read buf j = .ok c) (hceq : c ≠ '=')
    (hd : read buf (j + 1) = .ok d) (hdeq : d ≠ '=') :
    keyLoop key buf l (fuel + 1) j valid =
      keyLoop key buf l fuel (j + 1) (if blank d then valid else j + 1) := by
  simp [keyLoop, hj, hc, hceq, hd, hdeq]

/-- The step of the inner loop to the `=`. -/
lemma keyLoop_of_next_eq {c : Char} {r : ℤ} (hj : j < l.i) (hc : read buf j = .ok c)
    (hceq : c ≠ '=') (hd : read buf (j + 1) = .ok '=')
    (hr : strncasecmp (cstr key) (buf.drop l.newlineStart) (valid - l.newlineStart + 1) = .ok r) :
    keyLoop key buf l (fuel + 1) j valid = .ok (if r = 0 then some (j + 1) else none) := by
  have hstop : keyLoop key buf l fuel (j + 1) valid = .ok none := by
    cases fuel <;> simp [keyLoop, hd]
  simp only [keyLoop, if_pos hj, hc, ok_bind, if_neg hceq, hd, beq_self_eq_true, Bool.or_true,
    if_true, hr, hstop, pure_eq_ok]
  split <;> rfl

/-- The inner loop on a line with a `=`.  The induction is on what stands between the index
`j` and the `=`; `valid` is where the trimmed key ends so far. -/
lemma keyLoop_of_eq (hkey : nul ∉ key) {pre post : Text} (hpre : pre ≠ [])
    (hdrop : buf.drop l.newlineStart = pre ++ (post ++ '=' :: s))
    (heq : '=' ∉ pre ++ post) (hnul : nul ∉ pre ++ post)
    (hi : l.newlineStart + (pre ++ post).length < l.i)
    (hj : j + 1 = l.newlineStart + pre.length)
    (hvalid : valid + 1 = l.newlineStart + (trimKey pre).length) (hfuel : post.length < fuel) :
    keyLoop key buf l fuel j valid =
      .ok (if fold (trimKey (pre ++ post)) <+: fold key
        then some (l.newlineStart + (pre ++ post).length) else none) := by
  induction post generalizing pre fuel j valid with
  | nil =>
    -- the `=` is next
    obtain ⟨fuel, rfl⟩ : ∃ m, fuel = m + 1 := ⟨fuel - 1, by omega⟩
    simp only [List.append_nil, List.nil_append] at *
    obtain ⟨c, hc, hread⟩ := read_last hpre hdrop hj
    have hnext : read buf (j + 1) = .ok '=' := hj ▸ read_add_length hdrop
    obtain ⟨r, hr, hiff⟩ := strncasecmp_trimKey (s := '=' :: s) hkey hnul
    have hpos := List.length_pos_iff.2 (trimKey_ne_nil hpre)
    rw [show (trimKey pre).length = valid - l.newlineStart + 1 by omega, ← hdrop] at hr
    rw [keyLoop_of_next_eq (by omega) hread (fun h => heq (h ▸ hc)) hnext hr, ← hj]
    simp only [hiff]
  | cons d post ih =>
    obtain ⟨fuel, rfl⟩ : ∃ m, fuel = m + 1 := ⟨fuel - 1, by omega⟩
    obtain ⟨c, hc, hread⟩ := read_last hpre hdrop hj
    have hnext : read buf (j + 1) = .ok d := hj ▸ read_add_length hdrop
    have hceq : c ≠ '=' := by
      rintro rfl
      exact heq (List.mem_append_left _ hc)
    have hdeq : d ≠ '=' := by
      rintro rfl
      exact heq (by simp)
    have happ : pre ++ d :: post = (pre ++ [d]) ++ post := by simp
    have hj' : j < l.i := by
      rw [List.length_append] at hi
      omega
    rw [keyLoop_of_ne hj' hread hceq hnext hdeq, happ]
    refine ih (by simp) (by simpa using hdrop) (happ ▸ heq) (happ ▸ hnul) (happ ▸ hi)
      (by simp; omega) ?_ (by simpa using hfuel)
    -- `valid` moves with `j` unless a blank was read
    rw [trimKey_append_singleton hpre]
    split
    · exact hvalid
    · simp
      omega

/-- The inner loop on a line without a `=`. -/
lemma keyLoop_of_not_mem (hline : ∀ m, l.newlineStart ≤ m → m ≤ l.i →
      ∃ c, read buf m = .ok c ∧ c ≠ '=') (hj : l.newlineStart ≤ j) :
    keyLoop key buf l fuel j valid = .ok none := by
  induction fuel generalizing j valid with
  | zero => rfl
  | succ fuel ih =>
    by_cases hji : j < l.i
    · obtain ⟨c, hc, hceq⟩ := hline j hj (by omega)
      obtain ⟨d, hd, hdeq⟩ := hline (j + 1) (by omega) (by omega)
      rw [keyLoop_of_ne hji hc hceq hd hdeq]
      exact ih (by omega)
    · simp [keyLoop, hji]

end KeyLoop

/-- The line `l` of the buffer has the text `line`. -/
structure IsLine (buf : Text) (l : LineAt) (line : Text) : Prop where
  drop_eq : ∃ c s, buf.drop l.newlineStart = line ++ c :: s ∧ (newline c || endOfString c) = true
  inside : ∀ c ∈ line, (newline c || endOfString c) = false
  i_eq : l.i = l.newlineStart + line.length

/-- The indices that a match of a key returns. -/
def LineAt.spans (l : LineAt) (line : Text) (s : Setting) : Spans :=
  ⟨l.secS, l.secE, l.newlineStart, l.newlineStart + (line.takeWhile (· != '=')).length - 1,
    l.i - s.value.length, l.i⟩

lemma not_blank_of_ends {c : Char} (hc : (newline c || endOfString c) = true) :
    blank c = false ∧ c ≠ '#' ∧ c ≠ '=' := by
  simp only [newline, endOfString, Bool.or_eq_true, beq_iff_eq] at hc
  rcases hc with (rfl | rfl) | rfl <;> decide

lemma IsLine.read_start {line : Text} (h : IsLine buf l line) :
    ∃ c, read buf l.newlineStart = .ok c ∧ (c = '#' ↔ line.head? = some '#') := by
  obtain ⟨c, s, hdrop, hc⟩ := h.drop_eq
  cases line with
  | nil => exact ⟨c, read_of_drop hdrop, by simp [(not_blank_of_ends hc).2.1]⟩
  | cons a t => exact ⟨a, read_of_drop hdrop, by simp⟩

/-- The blanks after the `=` are passed over. -/
lemma IsLine.skip_blanks {k v : Text} (h : IsLine buf l (k ++ '=' :: v)) :
    skipWhile blank buf (l.newlineStart + k.length + 1) =
      .ok (l.i - (v.dropWhile blank).length) := by
  obtain ⟨c, s, hdrop, hc⟩ := h.drop_eq
  have hv : v.takeWhile blank ++ v.dropWhile blank = v := List.takeWhile_append_dropWhile
  have hlen : l.i - (v.dropWhile blank).length =
      l.newlineStart + k.length + 1 + (v.takeWhile blank).length := by
    have hi := h.i_eq
    have := congrArg List.length hv
    simp only [List.length_append, List.length_cons] at hi this
    omega
  have hdrop' : buf.drop (l.newlineStart + k.length + 1) =
      v.takeWhile blank ++ (v.dropWhile blank ++ c :: s) := by
    rw [Nat.add_assoc, ← List.drop_drop, hdrop, ← List.append_assoc, hv]
    simp [← List.drop_drop]
  have htake : ∀ x ∈ v.takeWhile blank, blank x = true := fun x hx => List.mem_takeWhile_imp hx
  rw [hlen]
  cases hrest : v.dropWhile blank with
  | nil =>
    rw [hrest] at hdrop'
    exact skipWhile_of_drop hdrop' htake (not_blank_of_ends hc).1
  | cons a t =>
    rw [hrest] at hdrop'
    refine skipWhile_of_drop hdrop' htake ?_
    have := List.head?_dropWhile_not blank v
    rw [hrest] at this
    simpa using this

lemma IsLine.read_ne_eq {line : Text} (h : IsLine buf l line) (heq : '=' ∉ line) (m : ℕ)
    (hm : l.newlineStart ≤ m) (hmi : m ≤ l.i) : ∃ c, read buf m = .ok c ∧ c ≠ '=' := by
  obtain ⟨c, s, hdrop, hc⟩ := h.drop_eq
  obtain ⟨n, rfl⟩ := Nat.exists_eq_add_of_le hm
  have hi := h.i_eq
  -- a character of the line, or the one that ends it
  rcases Nat.lt_or_ge n line.length with hn | hn
  · refine ⟨line.get ⟨n, hn⟩, ?_, fun h => heq (h ▸ List.get_mem ..)⟩
    rw [read_eq_ok, ← List.getElem?_drop, hdrop, List.getElem?_append_left hn]
    simp
  · obtain rfl : n = line.length := by omega
    exact ⟨c, read_add_length hdrop, (not_blank_of_ends hc).2.2⟩

lemma IsLine.nul_notMem {line : Text} (h : IsLine buf l line) : nul ∉ line := by
  intro hmem
  have := h.inside nul hmem
  simp [endOfString] at this

/-- A line sets a key if its own key is a prefix of it, up to case: `parse_file` compares
only as many characters as the key of the line has. -/
theorem matchLine_eq {line : Text} (hkey : nul ∉ key) (h : IsLine buf l line) :
    matchLine key buf l =
      .ok (((settingOf line).filter fun s => decide (fold s.key <+: fold key)).map
        (l.spans line)) := by
  obtain ⟨c, s, hdrop, hc⟩ := h.drop_eq
  obtain ⟨a, hread, ha⟩ := h.read_start
  by_cases hhash : line.head? = some '#'
  · simp [matchLine, settingOf, hread, ha.2 hhash, hhash]
  have hcut : line.takeWhile (· != '=') ++ line.dropWhile (· != '=') = line :=
    List.takeWhile_append_dropWhile
  have hkeq : '=' ∉ line.takeWhile (· != '=') := fun hmem => by
    simpa using List.mem_takeWhile_imp hmem
  simp only [matchLine, settingOf, hread, ok_bind, if_neg (mt ha.1 hhash), if_neg hhash]
  rcases hd : line.dropWhile (· != '=') with _ | ⟨d, v⟩
  · -- no `=` in the line
    rw [hd, List.append_nil] at hcut
    rw [hcut] at hkeq
    rw [keyLoop_of_not_mem (h.read_ne_eq hkeq) le_rfl]
    cases line.takeWhile (· != '=') <;> rfl
  · obtain rfl : d = '=' := by
      have := List.head?_dropWhile_not (· != '=') line
      rw [hd] at this
      simpa using this
    rcases hk : line.takeWhile (· != '=') with _ | ⟨b, k⟩
    · -- the line starts with `=`
      rw [hd, hk, List.nil_append] at hcut
      subst hcut
      obtain rfl : a = '=' := Except.ok.inj (hread.symm.trans (read_of_drop hdrop))
      simp [keyLoop, hread]
    · -- the loop gets to the `=` behind a key
      rw [hd, hk] at hcut
      subst hcut
      have hi := h.i_eq
      have hnul := h.nul_notMem
      rw [hk] at hkeq
      simp only [List.length_append, List.length_cons] at hi
      have hdrop' : buf.drop l.newlineStart = [b] ++ (k ++ '=' :: (v ++ c :: s)) := by
        simpa using hdrop
      rw [keyLoop_of_eq hkey (by simp) hdrop' hkeq (fun hmem => hnul (List.mem_append_left _ hmem))
        (by simp; omega) (by simp) (by simp [trimKey]) (by omega)]
      by_cases hfold : fold (trimKey (b :: k)) <+: fold key
      · simp only [List.singleton_append, ok_bind, h.skip_blanks, pure_eq_ok,
          Option.filter, hfold, decide_true, if_true, Option.map_some, LineAt.spans, hk]
      · simp only [List.singleton_append, ok_bind, pure_eq_ok, Option.filter, hfold,
          decide_false, Bool.false_eq_true, if_false, Option.map_none]

lemma settingOf_suffix {line : Text} {set : Setting} (h : settingOf line = some set) :
    set.value <:+ line := by
  rw [settingOf] at h
  split at h
  · simp at h
  · split at h
    · next c s d v hk hd =>
      obtain rfl := Option.some.inj h
      have hv : d :: v <:+ line := hd ▸ List.dropWhile_suffix _
      exact (List.dropWhile_suffix _).trans ((List.suffix_cons d v).trans hv)
    · simp at h

/-- The indices of the value delimit the value. -/
lemma IsLine.take_drop_spans {line : Text} {set : Setting} (h : IsLine buf l line)
    (hset : settingOf line = some set) :
    (buf.drop (l.spans line set).valueS).take
      ((l.spans line set).valueE - (l.spans line set).valueS) = set.value := by
  obtain ⟨c, s, hdrop, -⟩ := h.drop_eq
  obtain ⟨pre, hpre⟩ := settingOf_suffix hset
  have hlen := congrArg List.length hpre
  have hi := h.i_eq
  rw [List.length_append] at hlen
  have hS : (l.spans line set).valueS = l.newlineStart + pre.length := by
    simp only [LineAt.spans]
    omega
  have hE : (l.spans line set).valueE - (l.newlineStart + pre.length) = set.value.length := by
    simp only [LineAt.spans]
    omega
  rw [hS, hE, ← List.drop_drop, hdrop, ← hpre]
  simp

/-- The key that a line sets is the text before the `=`, trimmed. -/
lemma settingOf_key {line : Text} {set : Setting} (h : settingOf line = some set) :
    set.key = trimKey (line.takeWhile (· != '=')) ∧ line.takeWhile (· != '=') ≠ [] := by
  rw [settingOf] at h
  split at h
  · simp at h
  · split at h
    · next c s d v hk hd =>
      obtain rfl := Option.some.inj h
      rw [hk]
      exact ⟨rfl, List.cons_ne_nil c s⟩
    · simp at h

/-- The indices of the key delimit the text before the `=`. -/
lemma IsLine.take_drop_key {line : Text} {set : Setting} (h : IsLine buf l line)
    (hset : settingOf line = some set) :
    (buf.drop (l.spans line set).keyS).take
      ((l.spans line set).keyE + 1 - (l.spans line set).keyS) = line.takeWhile (· != '=') := by
  obtain ⟨c, s, hdrop, -⟩ := h.drop_eq
  have hpos := List.length_pos_of_ne_nil (settingOf_key hset).2
  have hlen : (l.spans line set).keyE + 1 - (l.spans line set).keyS =
      (line.takeWhile (· != '=')).length := by
    simp only [LineAt.spans]
    omega
  obtain ⟨rest, hrest⟩ := List.takeWhile_prefix (· != '=') (l := line)
  have hkeyS : buf.drop (l.spans line set).keyS =
      line.takeWhile (· != '=') ++ (rest ++ c :: s) := by
    rw [← List.append_assoc, hrest]
    exact hdrop
  rw [hlen, hkeyS, List.take_left]

/-! ### The lines of a section -/

/-- The text of a line. -/
def lineText (buf : Text) (l : LineAt) : Text :=
  (buf.drop l.newlineStart).take (l.i - l.newlineStart)

lemma IsLine.lineText_eq {line : Text} (h : IsLine buf l line) : lineText buf l = line := by
  obtain ⟨c, s, hdrop, -⟩ := h.drop_eq
  have hi : l.i - l.newlineStart = line.length := by
    have := h.i_eq
    omega
  rw [lineText, hdrop, hi, List.take_left]

lemma isLine_of_advance (h : advance sec buf c = .ok (.line l)) :
    IsLine buf l (lineText buf l) := by
  obtain ⟨-, hskip⟩ := advance_eq_line h
  obtain ⟨line, c, s, hdrop, hline, hc, hi⟩ := skipWhile_eq_ok hskip
  have hl : IsLine buf l line := by
    refine ⟨⟨c, s, hdrop, by simpa [← Bool.not_or] using hc⟩, fun x hx => ?_, hi⟩
    simpa [← Bool.not_or] using hline x hx
  rwa [hl.lineText_eq]

/-- The scan for the lines of the sections `sec` passes `ls`, in this order, and stands at the
cursor. -/
inductive Scans (sec buf : Text) : List LineAt → Cursor → Prop
  | start : Scans sec buf [] (.outer 0)
  | goto {ls : List LineAt} {c c' : Cursor} (h : Scans sec buf ls c)
      (hc : advance sec buf c = .ok (.goto c')) : Scans sec buf ls c'
  | line {ls : List LineAt} {c : Cursor} {l : LineAt} (h : Scans sec buf ls c)
      (hl : advance sec buf c = .ok (.line l)) :
      Scans sec buf (ls ++ [l]) (.lines l.secS l.secE (l.i + 1))

lemma parseStep_of_goto (h : advance sec buf c = .ok (.goto c')) :
    parseStep sec key buf c = .ok (.inl c') := by
  simp [parseStep, h]

lemma parseStep_of_line (h : advance sec buf c = .ok (.line l))
    (hl : matchLine key buf l = .ok none) :
    parseStep sec key buf c = .ok (.inl (.lines l.secS l.secE (l.i + 1))) := by
  simp [parseStep, h, hl]

lemma parseStep_of_match {spans : Spans} (h : advance sec buf c = .ok (.line l))
    (hl : matchLine key buf l = .ok (some spans)) :
    parseStep sec key buf c = .ok (.inr (some spans)) := by
  simp [parseStep, h, hl]

lemma parseStep_eq_inr {spans : Spans} (h : parseStep sec key buf c = .ok (.inr (some spans))) :
    ∃ l, advance sec buf c = .ok (.line l) ∧ matchLine key buf l = .ok (some spans) := by
  simp only [parseStep, bind_eq_ok] at h
  obtain ⟨m, hm, h⟩ := h
  cases m with
  | stop => simp at h
  | goto d => simp at h
  | line l =>
    simp only [bind_eq_ok] at h
    obtain ⟨r, hr, h⟩ := h
    cases r with
    | none => simp at h
    | some spans' =>
      simp only [pure_eq_ok, Except.ok.injEq, Sum.inr.injEq] at h
      exact ⟨l, hm, h ▸ hr⟩

/-- As long as no line matches the key, `parse_file` passes the lines of the section. -/
lemma reaches_iff_scans :
    Loop.Reaches (parseStep sec key buf) (.outer 0) c ↔
      ∃ ls, Scans sec buf ls c ∧ ∀ l ∈ ls, matchLine key buf l = .ok none := by
  constructor
  · intro h
    induction h with
    | refl => exact ⟨[], .start, by simp⟩
    | tail _ hstep ih =>
      obtain ⟨ls, hscan, hls⟩ := ih
      rcases parseStep_eq_inl hstep with hc | ⟨l, hl, hnone, rfl⟩
      · exact ⟨ls, hscan.goto hc, hls⟩
      · refine ⟨ls ++ [l], hscan.line hl, fun l' hl' => ?_⟩
        rcases List.mem_append.1 hl' with hl' | hl'
        · exact hls l' hl'
        · exact List.mem_singleton.1 hl' ▸ hnone
  · rintro ⟨ls, hscan, hls⟩
    induction hscan with
    | start => exact .refl _
    | goto _ hc ih => exact (ih hls).trans (.single (parseStep_of_goto hc))
    | line _ hl ih =>
      exact (ih fun l hl => hls l (List.mem_append_left _ hl)).trans
        (.single (parseStep_of_line hl (hls _ (by simp))))

/-- Behind its assertions `parse_file` is its loop. -/
lemma parseFile_eq_ok {r : Option Spans} (hsec : strlenPos sec) (hkey : strlenPos key)
    (h : Loop.run (parseStep sec key buf) (2 * buf.length + 2) (.outer 0) = .ok (some r)) :
    parseFile sec key buf = .ok r := by
  simp only [parseFile, hsec, hkey, Bool.not_true, Bool.or_self, Bool.false_eq_true, if_false, h]

lemma parseFile_eq_error {e : Fault} (hsec : strlenPos sec) (hkey : strlenPos key)
    (h : Loop.run (parseStep sec key buf) (2 * buf.length + 2) (.outer 0) = .error e) :
    parseFile sec key buf = .error e := by
  simp only [parseFile, hsec, hkey, Bool.not_true, Bool.or_self, Bool.false_eq_true, if_false, h]

lemma parseFile_assertFailed (h : strlenPos sec = false) :
    parseFile sec key buf = .error .assertFailed := by
  simp only [parseFile, h, Bool.not_false, Bool.true_or, if_true]

lemma parseFile_eq_of_reaches {r : Option Spans} (hsec : strlenPos sec) (hkey : strlenPos key)
    (h : Loop.Reaches (parseStep sec key buf) (.outer 0) c)
    (hr : parseStep sec key buf c = .ok (.inr r)) : parseFile sec key buf = .ok r := by
  have hrun := Loop.run_of_reaches toGo_parseStep h hr (2 * buf.length + 2)
    (by simp only [Cursor.toGo]; omega)
  exact parseFile_eq_ok hsec hkey hrun

/-- `parse_file` finds the first line of the section that matches the key. -/
theorem parseFile_eq_some_iff {spans : Spans} (hsec : strlenPos sec) (hkey : strlenPos key) :
    parseFile sec key buf = .ok (some spans) ↔
      ∃ ls c l, Scans sec buf ls c ∧ (∀ l' ∈ ls, matchLine key buf l' = .ok none) ∧
        advance sec buf c = .ok (.line l) ∧ matchLine key buf l = .ok (some spans) := by
  constructor
  · intro h
    simp only [parseFile, hsec, hkey, Bool.not_true, Bool.or_self, Bool.false_eq_true,
      if_false] at h
    split at h
    · next r hrun =>
      obtain rfl : r = some spans := Except.ok.inj h
      obtain ⟨c, hreach, hc⟩ := Loop.reaches_of_run hrun
      obtain ⟨ls, hscan, hls⟩ := reaches_iff_scans.1 hreach
      obtain ⟨l, hl, hmatch⟩ := parseStep_eq_inr hc
      exact ⟨ls, c, l, hscan, hls, hl, hmatch⟩
    · simp at h
    · simp at h
  · rintro ⟨ls, c, l, hscan, hls, hl, hmatch⟩
    exact parseFile_eq_of_reaches hsec hkey (reaches_iff_scans.2 ⟨ls, hscan, hls⟩)
      (parseStep_of_match hl hmatch)

/-- `l` is the first line of the sections `sec` whose key begins the requested one, up to case,
and `set` is what it sets. -/
structure FirstMatch (sec key buf : Text) (l : LineAt) (set : Setting) : Prop where
  settingOf_eq : settingOf (lineText buf l) = some set
  prefix_key : fold set.key <+: fold key
  first : ∃ ls c, Scans sec buf ls c ∧ advance sec buf c = .ok (.line l) ∧
    ∀ l' ∈ ls, ∀ set' ∈ settingOf (lineText buf l'), ¬ fold set'.key <+: fold key

lemma matchLine_eq_none_iff (hkey : nul ∉ key) {line : Text} (h : IsLine buf l line) :
    matchLine key buf l = .ok none ↔
      ∀ set ∈ settingOf line, ¬ fold set.key <+: fold key := by
  simp [matchLine_eq hkey h, Option.filter_eq_none_iff]

lemma isLine_of_scans {ls : List LineAt} (h : Scans sec buf ls c) :
    ∀ l ∈ ls, IsLine buf l (lineText buf l) := by
  induction h with
  | start => simp
  | goto _ _ ih => exact ih
  | line _ hl ih =>
    intro l' hl'
    rcases List.mem_append.1 hl' with hl' | hl'
    · exact ih l' hl'
    · exact List.mem_singleton.1 hl' ▸ isLine_of_advance hl

/-- `parse_file` finds the first line of the section whose key begins the requested one. -/
theorem parseFile_eq_some_iff_firstMatch {spans : Spans} (hsec : strlenPos sec)
    (hkey : strlenPos key) (hnul : nul ∉ key) :
    parseFile sec key buf = .ok (some spans) ↔
      ∃ l set, FirstMatch sec key buf l set ∧ spans = l.spans (lineText buf l) set := by
  rw [parseFile_eq_some_iff hsec hkey]
  constructor
  · rintro ⟨ls, c, l, hscan, hls, hl, hmatch⟩
    rw [matchLine_eq hnul (isLine_of_advance hl), Except.ok.injEq, Option.map_eq_some_iff] at hmatch
    obtain ⟨set, hset, rfl⟩ := hmatch
    obtain ⟨hset, hpre⟩ := Option.filter_eq_some_iff.1 hset
    refine ⟨l, set, ⟨hset, by simpa using hpre, ls, c, hscan, hl, fun l' hl' => ?_⟩, rfl⟩
    exact (matchLine_eq_none_iff hnul (isLine_of_scans hscan l' hl')).1 (hls l' hl')
  · rintro ⟨l, set, ⟨hset, hpre, ls, c, hscan, hl, hls⟩, rfl⟩
    refine ⟨ls, c, l, hscan, fun l' hl' => ?_, hl, ?_⟩
    · exact (matchLine_eq_none_iff hnul (isLine_of_scans hscan l' hl')).2 (hls l' hl')
    · simp [matchLine_eq hnul (isLine_of_advance hl), hset, hpre, Option.filter]

end Conf
