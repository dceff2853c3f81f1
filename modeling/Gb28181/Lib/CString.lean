import Mathlib.Data.Int.Notation
import Mathlib.Data.Nat.Notation
import Mathlib.Data.List.Basic

/-!
# C strings in bounded memory

The byte-level functions that C and C++ programs use on strings, over memory whose bounds
are known: a read outside it is a fault, not a value.  A byte is written as the character
with its code, so that string constants read as in the source.
-/

namespace Lib

/-- The ways in which a C++ program leaves its defined behaviour. -/
inductive Fault where
  /-- An access outside the object. -/
  | outOfBounds
  /-- A failed `assert`. -/
  | assertFailed
  /-- A null pointer is dereferenced. -/
  | nullDeref
  /-- An uncaught `std::out_of_range`. -/
  | outOfRange
  /-- A loop that does not end. -/
  | diverges
  deriving DecidableEq, Repr

section Except

universe u

variable {α β : Type u}

@[simp] lemma pure_eq_ok (a : α) : (pure a : Except Fault α) = .ok a := rfl

@[simp] lemma throw_eq_error (e : Fault) : (throw e : Except Fault α) = .error e := rfl

@[simp] lemma ok_bind (a : α) (f : α → Except Fault β) : (Except.ok a >>= f) = f a := rfl

@[simp] lemma error_bind (e : Fault) (f : α → Except Fault β) :
    (Except.error e >>= f) = .error e := rfl

lemma bind_eq_ok {x : Except Fault α} {f : α → Except Fault β} {b : β} :
    x >>= f = .ok b ↔ ∃ a, x = .ok a ∧ f a = .ok b := by
  cases x <;> simp

end Except

/-- Bytes of a file, of a buffer or of a string. -/
abbrev Text := List Char

/-- A quantifier over a text is decided by going through the text, not through all the
characters there are. -/
instance (priority := 2000) decidableForallMem (p : Char → Prop) [DecidablePred p] (s : Text) :
    Decidable (∀ c ∈ s, p c) := List.decidableBAll p s

/-- The terminator of a C string. -/
def nul : Char := '\x00'

/-- The C string of a text. -/
def cstr (s : Text) : Text := s ++ [nul]

/-- `buf[i]`. -/
def read (buf : Text) (i : ℕ) : Except Fault Char :=
  match buf[i]? with
  | some c => .ok c
  | none => .error .outOfBounds

lemma read_eq_ok {buf : Text} {i : ℕ} {c : Char} : read buf i = .ok c ↔ buf[i]? = some c := by
  rw [read]
  cases buf[i]? <;> simp

lemma read_of_drop {buf s : Text} {i : ℕ} {c : Char} (h : buf.drop i = c :: s) :
    read buf i = .ok c := by
  rw [read_eq_ok, ← List.head?_drop, h, List.head?_cons]

lemma read_add_length {buf xs s : Text} {i : ℕ} {c : Char} (h : buf.drop i = xs ++ c :: s) :
    read buf (i + xs.length) = .ok c := by
  rw [read_eq_ok, ← List.getElem?_drop, h]
  simp

lemma lt_length_of_read {buf : Text} {i : ℕ} {c : Char} (h : read buf i = .ok c) :
    i < buf.length :=
  (List.getElem?_eq_some_iff.1 (read_eq_ok.1 h)).1

/-- `buf[i] = c`. -/
def write (buf : Text) (i : ℕ) (c : Char) : Except Fault Text :=
  if i < buf.length then .ok (buf.set i c) else .error .outOfBounds

lemma write_append (s t : Text) (b c : Char) :
    write (s ++ b :: t) s.length c = .ok (s ++ c :: t) := by
  have hlt : s.length < (s ++ b :: t).length := by simp
  rw [write, if_pos hlt, List.set_append_right s.length c (Nat.le_refl _), Nat.sub_self,
    List.set_cons_zero]

lemma read_append (s t : Text) (c : Char) : read (s ++ c :: t) s.length = .ok c :=
  read_of_drop List.drop_left

/-! ### Scanning -/

/-- `while (p(*s)) s++`, over the memory from the index `i` on. -/
def scanFrom (p : Char → Bool) : Text → ℕ → Except Fault ℕ
  | [], _ => .error .outOfBounds
  | c :: s, i => if p c then scanFrom p s (i + 1) else .ok i

/-- `while (p(buf[i])) i++`. -/
def skipWhile (p : Char → Bool) (buf : Text) (i : ℕ) : Except Fault ℕ :=
  scanFrom p (buf.drop i) i

variable {p : Char → Bool} {buf : Text} {i j : ℕ}

lemma scanFrom_append {xs : Text} (s : Text) (hxs : ∀ x ∈ xs, p x = true) :
    scanFrom p (xs ++ s) i = scanFrom p s (i + xs.length) := by
  induction xs generalizing i with
  | nil => rfl
  | cons x xs ih =>
    have hx : p x = true := hxs x (by simp)
    rw [List.cons_append, scanFrom, if_pos hx, ih fun y hy => hxs y (by simp [hy]),
      List.length_cons, Nat.add_comm xs.length, ← Nat.add_assoc]

/-- What is passed over at first does not count. -/
lemma skipWhile_append {xs s : Text} (h : buf.drop i = xs ++ s) (hxs : ∀ x ∈ xs, p x = true) :
    skipWhile p buf i = skipWhile p buf (i + xs.length) := by
  rw [skipWhile, skipWhile, ← List.drop_drop, h, scanFrom_append s hxs, List.drop_left]

lemma skipWhile_of_drop {xs s : Text} {c : Char} (h : buf.drop i = xs ++ c :: s)
    (hxs : ∀ x ∈ xs, p x = true) (hc : p c = false) :
    skipWhile p buf i = .ok (i + xs.length) := by
  rw [skipWhile, h, scanFrom_append _ hxs, scanFrom, hc]
  rfl

/-- Nothing is passed over. -/
lemma skipWhile_self {s : Text} {c : Char} (h : buf.drop i = c :: s) (hc : p c = false) :
    skipWhile p buf i = .ok i := by
  rw [skipWhile, h, scanFrom, hc]
  rfl

lemma scanFrom_eq_ok {s : Text} (h : scanFrom p s i = .ok j) :
    ∃ xs c t, s = xs ++ c :: t ∧ (∀ x ∈ xs, p x = true) ∧ p c = false ∧ j = i + xs.length := by
  induction s generalizing i with
  | nil => simp [scanFrom] at h
  | cons c s ih =>
    rw [scanFrom] at h
    split at h
    · next hc =>
      obtain ⟨xs, d, t, rfl, hxs, hd, rfl⟩ := ih h
      refine ⟨c :: xs, d, t, rfl, ?_, hd, by simp; omega⟩
      simpa [hc] using hxs
    · next hc =>
      obtain rfl : i = j := by simpa using h
      exact ⟨[], c, s, rfl, by simp, by simpa using hc, by simp⟩

lemma skipWhile_eq_ok (h : skipWhile p buf i = .ok j) :
    ∃ xs c t, buf.drop i = xs ++ c :: t ∧ (∀ x ∈ xs, p x = true) ∧ p c = false ∧
      j = i + xs.length := scanFrom_eq_ok h

/-- What is passed satisfies the condition. -/
lemma read_of_skipWhile {k : ℕ} (h : skipWhile p buf i = .ok j) (hik : i ≤ k) (hkj : k < j) :
    ∃ c, read buf k = .ok c ∧ p c = true := by
  obtain ⟨xs, c, t, hdrop, hxs, -, rfl⟩ := skipWhile_eq_ok h
  obtain ⟨m, rfl⟩ := Nat.exists_eq_add_of_le hik
  have hm : m < xs.length := by omega
  refine ⟨xs[m], ?_, hxs _ (List.getElem_mem hm)⟩
  rw [read_eq_ok, ← List.getElem?_drop, hdrop, List.getElem?_append_left hm,
    List.getElem?_eq_getElem hm]

lemma skipWhile_bounds (h : skipWhile p buf i = .ok j) : i ≤ j ∧ j < buf.length := by
  obtain ⟨xs, c, t, hdrop, -, -, rfl⟩ := skipWhile_eq_ok h
  have := congrArg List.length hdrop
  simp only [List.length_drop, List.length_append, List.length_cons] at this
  omega

lemma exists_first_not {s : Text} {c : Char} (hmem : c ∈ s) (hc : p c = false) :
    ∃ xs d t, s = xs ++ d :: t ∧ (∀ x ∈ xs, p x = true) ∧ p d = false := by
  induction s with
  | nil => exact absurd hmem List.not_mem_nil
  | cons d s ih =>
    by_cases hd : p d = true
    · have hmem' : c ∈ s := by
        rcases List.mem_cons.1 hmem with rfl | hmem
        · exact absurd (hc.symm.trans hd) Bool.false_ne_true
        · exact hmem
      obtain ⟨xs, x, t, rfl, hxs, hx⟩ := ih hmem'
      refine ⟨d :: xs, x, t, rfl, ?_, hx⟩
      simpa [hd] using hxs
    · exact ⟨[], d, s, rfl, by simp, Bool.eq_false_iff.2 hd⟩

/-- The scan comes to an end at the latest where it cannot go on. -/
lemma exists_skipWhile_le {n : ℕ} {c : Char} (hn : read buf n = .ok c) (hc : p c = false)
    (hi : i ≤ n) : ∃ j, skipWhile p buf i = .ok j ∧ j ≤ n := by
  obtain ⟨j, hj⟩ : ∃ j, skipWhile p buf i = .ok j := by
    have hmem : c ∈ buf.drop i := by
      refine List.mem_of_getElem? (i := n - i) ?_
      rw [List.getElem?_drop, Nat.add_sub_cancel' hi]
      exact read_eq_ok.1 hn
    obtain ⟨xs, d, t, hdrop, hxs, hd⟩ := exists_first_not hmem hc
    exact ⟨_, skipWhile_of_drop hdrop hxs hd⟩
  refine ⟨j, hj, ?_⟩
  -- otherwise the scan would have passed `n`
  by_contra hlt
  obtain ⟨d, hd, hpd⟩ := read_of_skipWhile hj hi (Nat.lt_of_not_le hlt)
  obtain rfl : d = c := Except.ok.inj (hd.symm.trans hn)
  rw [hc] at hpd
  exact Bool.false_ne_true hpd

/-! ### Comparison without case -/

/-- `tolower` of the C locale. -/
def tolower (c : Char) : ℕ := if 65 ≤ c.toNat ∧ c.toNat ≤ 90 then c.toNat + 32 else c.toNat

/-- A text with its case folded. -/
def fold (s : Text) : List ℕ := s.map tolower

/-- `strncasecmp(s, t, n)` over the memory at `s` and at `t`. -/
def strncasecmp : Text → Text → ℕ → Except Fault ℤ
  | _, _, 0 => .ok 0
  | a :: s, b :: t, n + 1 =>
    if tolower a ≠ tolower b then .ok (tolower a - tolower b)
    else if a = nul then .ok 0
    else strncasecmp s t n
  | _, _, _ + 1 => .error .outOfBounds

@[simp] lemma strncasecmp_zero (s t : Text) : strncasecmp s t 0 = .ok 0 := by
  cases s <;> cases t <;> rfl

@[simp] lemma fold_nil : fold [] = [] := rfl

@[simp] lemma fold_cons (c : Char) (s : Text) : fold (c :: s) = tolower c :: fold s := rfl

@[simp] lemma fold_append (s t : Text) : fold (s ++ t) = fold s ++ fold t := List.map_append

@[simp] lemma length_fold (s : Text) : (fold s).length = s.length := List.length_map tolower

/-- Texts that are the same up to case are equally long. -/
lemma length_eq_of_fold {s t : Text} (h : fold s = fold t) : s.length = t.length := by
  rw [← length_fold s, h, length_fold]

lemma tolower_eq_tolower_nul {c : Char} : tolower c = tolower nul ↔ c = nul := by
  constructor
  · intro h
    have hz : tolower nul = 0 := rfl
    rw [hz, tolower] at h
    split at h
    · omega
    · exact Char.toNat_inj.1 h
  · rintro rfl
    rfl

/-- The first `|xs|` bytes of `xs ++ s` are compared with the C string `ys`: they agree
exactly when `ys` begins with `xs`, up to case. -/
lemma strncasecmp_left {xs ys : Text} (s t : Text) (hxs : nul ∉ xs) (hys : nul ∉ ys) :
    ∃ r, strncasecmp (xs ++ s) (ys ++ nul :: t) xs.length = .ok r ∧
      (r = 0 ↔ fold xs <+: fold ys) := by
  induction xs generalizing ys with
  | nil => exact ⟨0, by simp, by simp⟩
  | cons x xs ih =>
    have hx : x ≠ nul := fun hx => hxs (by simp [hx])
    cases ys with
    | nil =>
      have hne : tolower x ≠ tolower nul := fun h => hx (tolower_eq_tolower_nul.1 h)
      refine ⟨tolower x - tolower nul, by simp [strncasecmp, hne], ?_⟩
      simp only [fold_cons, fold_nil, List.prefix_nil, reduceCtorEq, iff_false]
      omega
    | cons y ys =>
      by_cases hxy : tolower x = tolower y
      · obtain ⟨r, hr, hiff⟩ := @ih ys (fun h => hxs (by simp [h])) (fun h => hys (by simp [h]))
        refine ⟨r, by simpa [strncasecmp, hxy, hx] using hr, ?_⟩
        rw [hiff, fold_cons, fold_cons, List.cons_prefix_cons]
        simp [hxy]
      · refine ⟨tolower x - tolower y, by simp [strncasecmp, hxy], ?_⟩
        rw [fold_cons, fold_cons, List.cons_prefix_cons]
        constructor
        · intro h
          omega
        · rintro ⟨h, -⟩
          exact absurd h hxy

lemma strncasecmp_swap {s t : Text} {n : ℕ} {r : ℤ} (h : strncasecmp s t n = .ok r) :
    strncasecmp t s n = .ok (-r) := by
  induction n generalizing s t with
  | zero =>
    obtain rfl : 0 = r := by simpa using h
    simp
  | succ n ih =>
    cases s with
    | nil => simp [strncasecmp] at h
    | cons a s =>
      cases t with
      | nil => simp [strncasecmp] at h
      | cons b t =>
        rw [strncasecmp] at h ⊢
        by_cases hab : tolower a = tolower b
        · -- the call tests the terminator in its first argument alone
          have hnul : b = nul ↔ a = nul := by
            rw [← tolower_eq_tolower_nul, ← hab, tolower_eq_tolower_nul]
          by_cases ha : a = nul
          · simp only [hab, ne_eq, not_true_eq_false, if_false, if_pos ha, Except.ok.injEq] at h
            subst h
            simp [hab, hnul.2 ha]
          · simp only [hab, ne_eq, not_true_eq_false, if_false, if_neg ha] at h
            simp only [hab, ne_eq, not_true_eq_false, if_false, if_neg (mt hnul.1 ha)]
            exact ih h
        · have hba : tolower b ≠ tolower a := fun h => hab h.symm
          simp only [ne_eq, hab, not_false_eq_true, if_true, Except.ok.injEq] at h
          simp only [hba, ne_eq, not_false_eq_true, if_true, Except.ok.injEq]
          omega

/-- The same with the C string on the left. -/
lemma strncasecmp_right {xs ys : Text} (s t : Text) (hxs : nul ∉ xs) (hys : nul ∉ ys) :
    ∃ r, strncasecmp (ys ++ nul :: t) (xs ++ s) xs.length = .ok r ∧
      (r = 0 ↔ fold xs <+: fold ys) := by
  obtain ⟨r, hr, hiff⟩ := strncasecmp_left s t hxs hys
  exact ⟨-r, strncasecmp_swap hr, by rw [← hiff]; omega⟩

end Lib
