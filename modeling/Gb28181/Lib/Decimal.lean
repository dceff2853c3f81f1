import Mathlib.Algebra.Group.Int.Defs
import Mathlib.Algebra.Group.Nat.Defs
import Mathlib.Data.List.Infix
import Mathlib.Order.Basic
import Gb28181.Lib.CString

/-!
# Decimal numerals

What C and C++ programs write with `std::to_string` and read back with `atoi`, and when one
numeral is a prefix of another: a one-digit numeral is a prefix of the numeral of `n` for
one digit only, the leading digit of `n`.
-/

namespace Lib

/-- Conversion to a 32-bit signed integer. -/
def wrap32 (z : ℤ) : ℤ := z.bmod (2 ^ 32)

/-- `z` is a value of a 32-bit signed integer. -/
def IsInt32 (z : ℤ) : Prop := -2 ^ 31 ≤ z ∧ z < 2 ^ 31

lemma isInt32_wrap32 (z : ℤ) : IsInt32 (wrap32 z) := by
  have h₁ := Int.le_bmod (x := z) (m := 2 ^ 32) (by decide)
  have h₂ := Int.bmod_lt (x := z) (m := 2 ^ 32) (by decide)
  rw [wrap32, IsInt32]
  omega

lemma wrap32_of_isInt32 {z : ℤ} (h : IsInt32 z) : wrap32 z = z := by
  obtain ⟨h₁, h₂⟩ := h
  exact Int.bmod_eq_of_le (by omega) (by omega)

/-- The conversion looks at the last 32 bits only. -/
lemma wrap32_congr {z w : ℤ} (h : z % 2 ^ 32 = w % 2 ^ 32) : wrap32 z = wrap32 w := by
  have hz : (z % 2 ^ 32).bmod (2 ^ 32) = wrap32 z := Int.emod_bmod ..
  have hw : (w % 2 ^ 32).bmod (2 ^ 32) = wrap32 w := Int.emod_bmod ..
  rw [← hz, ← hw, h]

/-- `std::to_string` of an integer. -/
def to_string (z : ℤ) : Text :=
  if z < 0 then '-' :: Nat.toDigits 10 z.natAbs else Nat.toDigits 10 z.natAbs

@[simp] lemma to_string_natCast (n : ℕ) : to_string n = Nat.toDigits 10 n := by
  simp [to_string]

lemma isDigit_of_mem_toDigits {n : ℕ} {c : Char} (h : c ∈ Nat.toDigits 10 n) :
    c.isDigit = true := Nat.isDigit_of_mem_toDigits (by decide) (by decide) h

lemma to_string_ne_nil (z : ℤ) : to_string z ≠ [] := by
  rw [to_string]
  split
  · simp
  · exact Nat.toDigits_ne_nil

/-- The characters of a printed integer. -/
lemma mem_to_string {z : ℤ} {c : Char} (h : c ∈ to_string z) : c = '-' ∨ c.isDigit = true := by
  rw [to_string] at h
  split at h
  · rcases List.mem_cons.1 h with rfl | h
    · exact Or.inl rfl
    · exact Or.inr (isDigit_of_mem_toDigits h)
  · exact Or.inr (isDigit_of_mem_toDigits h)

/-- A 32-bit integer takes at most eleven characters. -/
lemma length_to_string {z : ℤ} (h : IsInt32 z) : (to_string z).length ≤ 11 := by
  obtain ⟨h₁, h₂⟩ := h
  have hdig : (Nat.toDigits 10 z.natAbs).length ≤ 10 :=
    (Nat.length_toDigits_le_iff (by decide) (by decide)).2 (by omega)
  rw [to_string]
  split
  · rw [List.length_cons]
    omega
  · omega

/-! ### Reading numerals -/

/-- `isspace` of the C locale. -/
def isspace (c : Char) : Bool := c == ' ' || (decide (9 ≤ c.toNat) && decide (c.toNat ≤ 13))

/-- The digits at the start of a text, as a number. -/
def leadingNat (s : Text) : ℕ := Nat.ofDigitChars 10 (s.takeWhile Char.isDigit) 0

/-- `strtol(s, NULL, 10)` with a 64-bit `long`, which saturates. -/
def strtol (s : Text) : ℤ :=
  match s.dropWhile isspace with
  | '-' :: t => max (-(leadingNat t : ℤ)) (-2 ^ 63)
  | '+' :: t => min (leadingNat t : ℤ) (2 ^ 63 - 1)
  | t => min (leadingNat t : ℤ) (2 ^ 63 - 1)

/-- `atoi(s)`. -/
def atoi (s : Text) : ℤ := wrap32 (strtol s)

lemma isInt32_atoi (s : Text) : IsInt32 (atoi s) := isInt32_wrap32 _

lemma isspace_of_isDigit {c : Char} (h : c.isDigit = true) : isspace c = false := by
  have hc : 48 ≤ c.toNat := by
    rw [Char.isDigit, Bool.and_eq_true, decide_eq_true_iff] at h
    exact h.1
  have hne : c ≠ ' ' := by
    rintro rfl
    exact absurd hc (by decide)
  simp only [isspace, Bool.or_eq_false_iff, beq_eq_false_iff_ne, Bool.and_eq_false_iff,
    decide_eq_false_iff_not]
  exact ⟨hne, Or.inr (by omega)⟩

lemma leadingNat_toDigits (n : ℕ) {s : Text} (hs : ∀ c ∈ s.head?, c.isDigit = false) :
    leadingNat (Nat.toDigits 10 n ++ s) = n := by
  have hall : ∀ c ∈ Nat.toDigits 10 n, c.isDigit = true := fun c hc =>
    isDigit_of_mem_toDigits hc
  have htake : s.takeWhile Char.isDigit = [] := by
    cases s with
    | nil => rfl
    | cons c s => simp [hs c rfl]
  rw [leadingNat, List.takeWhile_append_of_pos hall, htake, List.append_nil,
    Nat.ofDigitChars_ten_toDigits]

/-- `strtol` reads a number back, up to what follows the digits. -/
lemma strtol_toDigits (n : ℕ) {s : Text} (hs : ∀ c ∈ s.head?, c.isDigit = false) :
    strtol (Nat.toDigits 10 n ++ s) = min (n : ℤ) (2 ^ 63 - 1) := by
  obtain ⟨d, ds, hd⟩ : ∃ d ds, Nat.toDigits 10 n = d :: ds :=
    List.exists_cons_of_ne_nil Nat.toDigits_ne_nil
  have hdig : d.isDigit = true :=
    isDigit_of_mem_toDigits (n := n) (by simp [hd])
  have hread := leadingNat_toDigits n hs
  have hdrop : (Nat.toDigits 10 n ++ s).dropWhile isspace = d :: (ds ++ s) := by
    rw [hd, List.cons_append, List.dropWhile_cons_of_neg (by simp [isspace_of_isDigit hdig])]
  rw [hd, List.cons_append] at hread
  rw [strtol, hdrop]
  split
  · next heq =>
    obtain ⟨rfl, -⟩ := List.cons.inj heq
    exact absurd hdig (by decide)
  · next heq =>
    obtain ⟨rfl, -⟩ := List.cons.inj heq
    exact absurd hdig (by decide)
  · rw [hread]

/-- `atoi` reads back what `to_string` wrote, if no digit follows. -/
theorem atoi_to_string {z : ℤ} (hz : IsInt32 z) {s : Text}
    (hs : ∀ c ∈ s.head?, c.isDigit = false) : atoi (to_string z ++ s) = z := by
  obtain ⟨h₁, h₂⟩ := hz
  rw [atoi, to_string]
  split
  · -- with a sign
    have hstr : strtol ('-' :: Nat.toDigits 10 z.natAbs ++ s) = z := by
      rw [List.cons_append, strtol, List.dropWhile_cons_of_neg (by decide)]
      simp only [leadingNat_toDigits _ hs]
      omega
    rw [hstr, wrap32_of_isInt32 ⟨h₁, h₂⟩]
  · have hmin : min (z.natAbs : ℤ) (2 ^ 63 - 1) = z := by omega
    rw [strtol_toDigits _ hs, hmin, wrap32_of_isInt32 ⟨h₁, h₂⟩]

/-! ### Numerals that are prefixes of numerals -/

/-- The first decimal digit of a number. -/
def leadingDigit (n : ℕ) : ℕ := if n < 10 then n else leadingDigit (n / 10)

lemma leadingDigit_lt (n : ℕ) : leadingDigit n < 10 := by
  induction n using leadingDigit.induct with
  | case1 n h => rwa [leadingDigit, if_pos h]
  | case2 n h ih => rwa [leadingDigit, if_neg h]

lemma leadingDigit_le (n : ℕ) : leadingDigit n ≤ n := by
  induction n using leadingDigit.induct with
  | case1 n h => rw [leadingDigit, if_pos h]
  | case2 n h ih =>
    rw [leadingDigit, if_neg h]
    omega

lemma leadingDigit_pos {n : ℕ} (hn : 0 < n) : 0 < leadingDigit n := by
  induction n using leadingDigit.induct with
  | case1 n h => rwa [leadingDigit, if_pos h]
  | case2 n h ih =>
    rw [leadingDigit, if_neg h]
    exact ih (by omega)

lemma leadingDigit_of_lt {n : ℕ} (h : n < 10) : leadingDigit n = n := by
  rw [leadingDigit, if_pos h]

/-- The numeral of `n` begins with the leading digit of `n`. -/
lemma head?_toDigits (n : ℕ) :
    (Nat.toDigits 10 n).head? = some (Nat.digitChar (leadingDigit n)) := by
  induction n using leadingDigit.induct with
  | case1 n h => rw [Nat.toDigits_of_lt_base h, leadingDigit_of_lt h, List.head?_cons]
  | case2 n h ih =>
    rw [Nat.toDigits_of_base_le (by decide) (by omega), leadingDigit, if_neg h,
      List.head?_append, ih, Option.some_or]

lemma digitChar_injOn {j k : ℕ} (hj : j < 10) (hk : k < 10)
    (h : Nat.digitChar j = Nat.digitChar k) : j = k := by
  have := congrArg (fun c : Char => c.toNat - 48) h
  simpa only [Nat.toNat_digitChar_sub_48_of_lt_ten hj, Nat.toNat_digitChar_sub_48_of_lt_ten hk]
    using this

/-- A one-digit numeral is a prefix of the numeral of its leading digit's numbers only. -/
lemma toDigits_prefix_iff {j n : ℕ} (hj : j < 10) :
    Nat.toDigits 10 j <+: Nat.toDigits 10 n ↔ j = leadingDigit n := by
  obtain ⟨d, ds, hd⟩ : ∃ d ds, Nat.toDigits 10 n = d :: ds :=
    List.exists_cons_of_ne_nil Nat.toDigits_ne_nil
  have hhead : d = Nat.digitChar (leadingDigit n) := by
    have := head?_toDigits n
    rw [hd, List.head?_cons] at this
    exact Option.some.inj this
  rw [Nat.toDigits_of_lt_base hj, hd, List.cons_prefix_cons]
  constructor
  · rintro ⟨h, -⟩
    exact digitChar_injOn hj (leadingDigit_lt n) (h.trans hhead)
  · rintro rfl
    exact ⟨hhead.symm, List.nil_prefix⟩

end Lib
