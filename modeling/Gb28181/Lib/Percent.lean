import Gb28181.Lib.CString

/-!
# Percent-encoding

A text is written with characters of a certain set; each other byte is written as `%` and its two
hexadecimal digits.  Reading replaces every `%` that two such digits follow.  What was written is
read as the text itself would be read (`decode_encode`): the encoding neither makes nor breaks
such a group when the set has the sign and the digits in it.
-/

namespace Lib.Percent

/-- The value of a hexadecimal digit. -/
def digitVal (c : Char) : ℕ :=
  if c.toNat ≤ 57 then (c.toNat - 48) % 16
  else if c.toNat ≤ 70 then (c.toNat - 55) % 16
  else (c.toNat - 87) % 16

/-- A lower-case hexadecimal digit. -/
def hexDigit (n : ℕ) : Char := Nat.digitChar (n % 16)

/-- The group that stands for a byte. -/
def group (c : Char) : Text := ['%', hexDigit (c.toNat / 16), hexDigit c.toNat]

/-- The characters of `unres` stay, the other ones become groups. -/
def encode (unres : Char → Bool) (s : Text) : Text :=
  s.flatMap fun c => if unres c then [c] else group c

/-- Every group becomes its byte. -/
def decode : Text → Text
  | c :: a :: b :: s =>
    if c = '%' ∧ a.isHexDigit = true ∧ b.isHexDigit = true then
      Char.ofNat (digitVal a * 16 + digitVal b) :: decode s
    else c :: decode (a :: b :: s)
  | s => s

/-- The characters are bytes. -/
def Bytes (s : Text) : Prop := ∀ c ∈ s, c.toNat < 256

variable {unres : Char → Bool} {s t : Text} {c : Char} {n : ℕ}

/-- A set in which whatever is written can be read back. -/
structure Readable (unres : Char → Bool) : Prop where
  percent : unres '%' = true
  hex : ∀ c : Char, c.isHexDigit = true → unres c = true

/-! ### Digits -/

lemma digit_facts (h : n < 16) : (hexDigit n).isHexDigit = true ∧ digitVal (hexDigit n) = n := by
  revert n
  decide

lemma hexDigit_mod : hexDigit (n % 16) = hexDigit n := by rw [hexDigit, hexDigit, Nat.mod_mod]

lemma isHexDigit_hexDigit : (hexDigit n).isHexDigit = true := by
  rw [← hexDigit_mod]
  exact (digit_facts (Nat.mod_lt _ (by decide))).1

lemma digitVal_hexDigit : digitVal (hexDigit n) = n % 16 := by
  rw [← hexDigit_mod]
  exact (digit_facts (Nat.mod_lt _ (by decide))).2

/-! ### Writing -/

@[simp] lemma encode_nil : encode unres [] = [] := rfl

lemma encode_cons_of_pos (h : unres c = true) : encode unres (c :: s) = c :: encode unres s := by
  rw [encode, List.flatMap_cons, if_pos h]
  rfl

lemma encode_cons_of_neg (h : ¬unres c = true) :
    encode unres (c :: s) = group c ++ encode unres s := by
  rw [encode, List.flatMap_cons, if_neg h]
  rfl

lemma encode_eq_nil_iff : encode unres s = [] ↔ s = [] := by
  cases s with
  | nil => simp
  | cons c s =>
    by_cases h : unres c = true
    · simp [encode_cons_of_pos h]
    · simp [encode_cons_of_neg h, group]

/-- A text that has none but the characters of the set is written as it is. -/
lemma encode_eq_self (h : ∀ c ∈ s, unres c = true) : encode unres s = s := by
  induction s with
  | nil => rfl
  | cons c s ih =>
    rw [encode_cons_of_pos (h c (by simp)), ih fun d hd => h d (by simp [hd])]

/-- The characters of what is written. -/
lemma mem_encode (h : c ∈ encode unres s) : unres c = true ∨ c = '%' ∨ c.isHexDigit = true := by
  rw [encode, List.mem_flatMap] at h
  obtain ⟨d, -, hc⟩ := h
  split at hc
  · next hd => exact Or.inl (List.mem_singleton.1 hc ▸ hd)
  · simp only [group, List.mem_cons, List.not_mem_nil, or_false] at hc
    rcases hc with rfl | rfl | rfl
    · exact Or.inr (Or.inl rfl)
    · exact Or.inr (Or.inr isHexDigit_hexDigit)
    · exact Or.inr (Or.inr isHexDigit_hexDigit)

lemma Readable.of_mem_encode (hu : Readable unres) (h : c ∈ encode unres s) : unres c = true := by
  rcases mem_encode h with h | rfl | h
  · exact h
  · exact hu.percent
  · exact hu.hex c h

/-! ### Reading -/

@[simp] lemma decode_nil : decode [] = [] := rfl

lemma decode_cons_of_ne (h : c ≠ '%') : decode (c :: s) = c :: decode s := by
  match s with
  | [] => rfl
  | [_] => rfl
  | a :: b :: s => rw [decode, if_neg fun hc => h hc.1]

/-- A sign that no two digits follow. -/
lemma decode_percent_of_not
    (h : ∀ a b t, s = a :: b :: t → ¬(a.isHexDigit = true ∧ b.isHexDigit = true)) :
    decode ('%' :: s) = '%' :: decode s := by
  match s with
  | [] => rfl
  | [_] => rfl
  | a :: b :: s => rw [decode, if_neg fun hc => h a b s rfl hc.2]

lemma decode_group (hc : c.toNat < 256) : decode (group c ++ s) = c :: decode s := by
  have hval : digitVal (hexDigit (c.toNat / 16)) * 16 + digitVal (hexDigit c.toNat) = c.toNat := by
    rw [digitVal_hexDigit, digitVal_hexDigit]
    omega
  show decode ('%' :: hexDigit (c.toNat / 16) :: hexDigit c.toNat :: s) = _
  rw [decode, if_pos ⟨rfl, isHexDigit_hexDigit, isHexDigit_hexDigit⟩, hval, Char.ofNat_toNat]

lemma decode_eq_nil_iff : decode s = [] ↔ s = [] := by
  match s with
  | [] => simp
  | [_] => simp [decode]
  | [_, _] => simp [decode]
  | a :: b :: c :: s =>
    rw [decode]
    split <;> simp

lemma decode_of_notMem (h : '%' ∉ s) : decode s = s := by
  induction s with
  | nil => rfl
  | cons c s ih =>
    rw [List.mem_cons, not_or] at h
    rw [decode_cons_of_ne (Ne.symm h.1), ih h.2]

/-- The first two characters of what is written are two digits only where they were. -/
lemma digits_of_encode {a b : Char} (h : encode unres s = a :: b :: t)
    (ha : a.isHexDigit = true) (hb : b.isHexDigit = true) : ∃ s', s = a :: b :: s' := by
  have hne : ∀ d : Char, d.isHexDigit = true → '%' ≠ d := by
    rintro d hd rfl
    exact absurd hd (by decide)
  cases s with
  | nil => simp at h
  | cons c s =>
    by_cases hc : unres c = true
    · rw [encode_cons_of_pos hc, List.cons.injEq] at h
      obtain ⟨rfl, h⟩ := h
      cases s with
      | nil => simp at h
      | cons d s =>
        by_cases hd : unres d = true
        · rw [encode_cons_of_pos hd, List.cons.injEq] at h
          exact ⟨s, by rw [h.1]⟩
        · rw [encode_cons_of_neg hd] at h
          exact absurd (List.cons.inj h).1 (hne b hb)
    · rw [encode_cons_of_neg hc] at h
      exact absurd (List.cons.inj h).1 (hne a ha)

/-- What was written is read as the text itself would be. -/
theorem decode_encode (hu : Readable unres) (hs : Bytes s) :
    decode (encode unres s) = decode s := by
  induction hn : s.length using Nat.strongRecOn generalizing s with
  | ind n ih =>
    cases s with
    | nil => rfl
    | cons c s =>
      have hs' : Bytes s := fun d hd => hs d (List.mem_cons_of_mem _ hd)
      have hrest : decode (encode unres s) = decode s :=
        ih s.length (hn ▸ Nat.lt_succ_self _) hs' rfl
      by_cases hc : c = '%'
      · subst hc
        rw [encode_cons_of_pos hu.percent]
        by_cases hgroup : ∃ a b t, s = a :: b :: t ∧ a.isHexDigit = true ∧ b.isHexDigit = true
        · obtain ⟨a, b, t, rfl, ha, hb⟩ := hgroup
          have ht : decode (encode unres t) = decode t := by
            refine ih t.length ?_ (fun d hd => hs' d (by simp [hd])) rfl
            simp only [← hn, List.length_cons]
            omega
          rw [encode_cons_of_pos (hu.hex a ha), encode_cons_of_pos (hu.hex b hb), decode, decode,
            if_pos ⟨rfl, ha, hb⟩, if_pos ⟨rfl, ha, hb⟩, ht]
        · rw [decode_percent_of_not, decode_percent_of_not, hrest]
          · exact fun a b t ht hab => hgroup ⟨a, b, t, ht, hab⟩
          · intro a b t ht hab
            obtain ⟨s', rfl⟩ := digits_of_encode ht hab.1 hab.2
            exact hgroup ⟨a, b, s', rfl, hab⟩
      · rw [decode_cons_of_ne hc, ← hrest]
        by_cases hcu : unres c = true
        · rw [encode_cons_of_pos hcu, decode_cons_of_ne hc]
        · rw [encode_cons_of_neg hcu, decode_group (hs c (by simp))]

end Lib.Percent
