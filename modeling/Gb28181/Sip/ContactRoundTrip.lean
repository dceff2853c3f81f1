import Gb28181.Sip.HeaderRoundTrip
import Gb28181.Sip.MsgPrinter

/-!
# Contact headers

What is read of a Contact header that was printed: its address, its parameters and its expiry come
back, but the fraction of the `q` value is printed without the zeros that it begins with, and so it
comes back only if there are none (`receivedQ_eq_iff`).
-/

namespace Sip.Wire

open Lib Lib.Scan

variable {H : Type} {s t : Text} {hdr : ContactHdr} {n m frac : ℕ}

/-! ### Numbers -/

lemma toULong_natCast (h : n < 2 ^ 64) : toULong n = n := by
  rw [toULong]
  omega

lemma length_utoa_le_iff {k : ℕ} (hk : 0 < k) : (utoa n).length ≤ k ↔ n < 10 ^ k :=
  Nat.length_toDigits_le_iff (by decide) hk

/-- The loop over digits computes their number. -/
lemma foldl_digits {t : Text} (ht : ∀ c ∈ t, c.isDigit = true) {v : ℤ} {w : ℕ}
    (hv : (w : ℤ) % 2 ^ 64 = v) :
    t.foldl (fun value c => ((value * 10 + ((c.toNat : ℤ) - 48)) % 2 ^ 64)) v =
      (Nat.ofDigitChars 10 t w : ℤ) % 2 ^ 64 := by
  induction t generalizing v w with
  | nil => exact hv.symm
  | cons c t ih =>
    have hc : 48 ≤ c.toNat := by
      have hdigit := ht c List.mem_cons_self
      rw [Char.isDigit, Bool.and_eq_true, decide_eq_true_eq] at hdigit
      exact hdigit.1
    rw [List.foldl_cons, Nat.ofDigitChars_cons]
    refine ih (fun d hd => ht d (List.mem_cons_of_mem _ hd)) ?_
    have hzero : '0'.toNat = 48 := rfl
    rw [hzero]
    omega

/-- The digits of a fraction with the zeros that make them three. -/
lemma strtoulMindigit_utoa (hm : m < 1000) :
    strtoulMindigit (utoa m) 3 = m * 10 ^ (3 - (utoa m).length) := by
  have hfold := foldl_digits (t := utoa m) (v := 0) (w := 0) (fun _ => isDigit_of_mem_utoa) rfl
  have hval : Nat.ofDigitChars 10 (utoa m) 0 = m := Nat.ofDigitChars_ten_toDigits
  have hpow : 10 ^ (3 - (utoa m).length) ≤ 10 ^ 3 := Nat.pow_le_pow_right (by decide) (by omega)
  have hlt : m * 10 ^ (3 - (utoa m).length) < 2 ^ 64 :=
    Nat.lt_of_le_of_lt (Nat.mul_le_mul (Nat.le_of_lt hm) hpow) (by decide)
  have hnat : ((m : ℤ) % 2 ^ 64).toNat = m := by omega
  unfold strtoulMindigit
  rw [hfold, hval]
  dsimp only
  rw [hnat, Nat.mod_eq_of_lt hlt]

/-! ### The `q` value -/

lemma shortFrac_lt (h : frac < 1000) : shortFrac frac < 1000 := by
  unfold shortFrac
  dsimp only
  split <;> split <;> omega

/-- What is read of a fraction. -/
def receivedFrac (frac : ℕ) : ℕ :=
  if frac = 0 then 0 else shortFrac frac * 10 ^ (3 - (utoa (shortFrac frac)).length)

/-- What is read of a `q` value. -/
def receivedQ (q1000 : ℤ) : ℤ :=
  q1000 / 1000 * 1000 + receivedFrac (q1000 % 1000).toNat

/-- A number below 1000 with the zeros that make three digits of it. -/
lemma mul_pow_length (h : m < 1000) : m * 10 ^ (3 - (utoa m).length) =
    if m < 10 then m * 100 else if m < 100 then m * 10 else m := by
  have h₁ := length_utoa_le_iff (n := m) (k := 1) (by decide)
  have h₂ := length_utoa_le_iff (n := m) (k := 2) (by decide)
  have h₃ := length_utoa_le_iff (n := m) (k := 3) (by decide)
  have hpos := List.length_pos_iff.2 (utoa_ne_nil m)
  split
  · have hlen : (utoa m).length = 1 := by omega
    rw [hlen]
    rfl
  split
  · have hlen : (utoa m).length = 2 := by omega
    rw [hlen]
    rfl
  · have hlen : (utoa m).length = 3 := by omega
    rw [hlen]
    exact Nat.mul_one m

lemma shortFrac_eq (h : frac ≠ 0) (hlt : frac < 1000) : shortFrac frac =
    if frac % 100 = 0 then frac / 100 else if frac % 10 = 0 then frac / 10 else frac := by
  unfold shortFrac
  dsimp only
  split
  · rw [if_neg (by omega)]
  · rfl

/-- A fraction comes back unless it begins with a zero. -/
lemma receivedFrac_eq_iff (h : frac < 1000) : receivedFrac frac = frac ↔ frac = 0 ∨ 100 ≤ frac := by
  by_cases hzero : frac = 0
  · simp [receivedFrac, hzero]
  rw [receivedFrac, if_neg hzero, mul_pow_length (shortFrac_lt h), shortFrac_eq hzero h]
  split_ifs <;> omega

/-- A `q` value comes back unless its fraction begins with a zero. -/
theorem receivedQ_eq_iff {q1000 : ℤ} :
    receivedQ q1000 = q1000 ↔ q1000 % 1000 = 0 ∨ 100 ≤ q1000 % 1000 := by
  have hfrac := @receivedFrac_eq_iff (q1000 % 1000).toNat (by omega)
  rw [receivedQ]
  omega

/-! ### Parameters -/

/-- A Contact header that is read back. -/
structure ContactHdr.Printable (hdr : ContactHdr) : Prop where
  uri : hdr.uri.Printable .contactHdr
  q1000 : 0 ≤ hdr.q1000 ∧ hdr.q1000 < 2147483000
  expires : -1 ≤ hdr.expires ∧ hdr.expires ≤ maxInt32
  other_param : ∀ q ∈ hdr.other_param, q.Printable ∧
    ∀ name ∈ ["q".toList, "expires".toList], stricmp q.read.name name = true → q.read.value = []

/-- What is read of a Contact header that was printed. -/
def ContactHdr.received (hdr : ContactHdr) : ContactHdr where
  uri := hdr.uri.received .contactHdr
  q1000 := receivedQ hdr.q1000
  expires := hdr.expires
  other_param := hdr.other_param.map Param.read

lemma qText_natCast (hn : n < 2 ^ 31) : qText n =
    utoa (n / 1000) ++ if n % 1000 ≠ 0 then '.' :: utoa (shortFrac (n % 1000)) else [] := by
  have hint : toULong ((n : ℤ).tdiv 1000) = n / 1000 := by
    rw [Int.tdiv_eq_ediv_of_nonneg (Int.natCast_nonneg n), toULong]
    omega
  have hfrac : toUInt32 ((n : ℤ).tmod 1000) = n % 1000 := by
    rw [Int.tmod_eq_emod_of_nonneg (Int.natCast_nonneg n), toUInt32]
    omega
  unfold qText
  rw [hint, hfrac]

lemma notMem_utoa {c : Char} (h : c.isDigit = false) : c ∉ utoa n := by
  intro hmem
  have hdigit : c.isDigit = true := isDigit_of_mem_utoa hmem
  rw [h] at hdigit
  exact absurd hdigit Bool.false_ne_true

/-- The `q` value is read. -/
lemma reads_q (hn : n < 2147483000) : Reads (parseQ (qText n)) s (receivedQ n) s := by
  have hint : ((n / 1000 : ℕ) : ℤ) ≤ maxInt32 / 1000 := by
    rw [maxInt32]
    omega
  have hdot : '.' ∉ utoa (n / 1000) := notMem_utoa rfl
  have hmod : ((n : ℤ) % 1000).toNat = n % 1000 := by omega
  have hq : receivedQ n = ((n / 1000 : ℕ) : ℤ) * 1000 + (receivedFrac (n % 1000) : ℤ) := by
    rw [receivedQ, hmod]
    rfl
  rw [qText_natCast (by omega), hq]
  unfold parseQ
  by_cases hfrac : n % 1000 = 0
  · have hzero : ((receivedFrac 0 : ℕ) : ℤ) = 0 := rfl
    rw [if_neg (not_not.2 hfrac), List.append_nil, if_neg hdot, hfrac, hzero, add_zero]
    exact (reads_strtoiValidate hint).bind (.pure _ _)
  · have hmem : '.' ∈ utoa (n / 1000) ++ '.' :: utoa (shortFrac (n % 1000)) := by simp
    have hall : ∀ c ∈ utoa (n / 1000), (c != '.') = true := fun c hc => by
      rw [bne_iff_ne]
      rintro rfl
      exact hdot hc
    have hlt : shortFrac (n % 1000) < 1000 := shortFrac_lt (Nat.mod_lt _ (by decide))
    have hlen : (utoa (shortFrac (n % 1000))).length ≤ 3 := (length_utoa_le_iff (by decide)).2 hlt
    have htake : (utoa (n / 1000) ++ '.' :: utoa (shortFrac (n % 1000))).takeWhile (· != '.') =
        utoa (n / 1000) := takeWhile_append hall rfl
    have hdrop : (utoa (n / 1000) ++ '.' :: utoa (shortFrac (n % 1000))).dropWhile (· != '.') =
        '.' :: utoa (shortFrac (n % 1000)) := dropWhile_append hall rfl
    have hval : strtoulMindigit (utoa (shortFrac (n % 1000))) 3 = receivedFrac (n % 1000) := by
      rw [strtoulMindigit_utoa hlt, receivedFrac, if_neg hfrac]
    have hbound : receivedFrac (n % 1000) < 1000 := by
      rw [receivedFrac, if_neg hfrac, mul_pow_length hlt, shortFrac_eq hfrac (by omega)]
      split_ifs <;> omega
    rw [if_pos hfrac, if_pos hmem, htake, hdrop, List.drop_one, List.tail_cons,
      List.take_of_length_le hlen]
    refine (reads_strtoiValidate hint).bind ?_
    have hsmall : ¬((n / 1000 : ℕ) : ℤ) * 1000 >
        (maxInt32 - (receivedFrac (n % 1000) : ℤ)) % 2 ^ 64 := by
      rw [maxInt32]
      omega
    have hwrap : wrap32 (((n / 1000 : ℕ) : ℤ) * 1000 + (receivedFrac (n % 1000) : ℤ)) =
        ((n / 1000 : ℕ) : ℤ) * 1000 + (receivedFrac (n % 1000) : ℤ) :=
      wrap32_of_isInt32 ⟨by omega, by omega⟩
    rw [hval, if_neg hsmall, hwrap]
    exact .pure _ _

/-- The parameters of a Contact header as they are on the wire. -/
def ContactHdr.written (hdr : ContactHdr) : List Param :=
  (if hdr.q1000 ≠ 0 then [⟨"q".toList, qText hdr.q1000⟩] else []) ++
    ((if 0 ≤ hdr.expires then [⟨"expires".toList, utoa (toULong hdr.expires)⟩] else []) ++
    hdr.other_param.map (Param.written tokenSpec))

lemma contact_value_eq (hdr : ContactHdr) :
    hdr.value = hdr.uri.print .contactHdr ++ paramsText hdr.written := by
  rw [ContactHdr.value, ContactHdr.written, paramsText_append, paramsText_append, paramsText_ite,
    paramsText_ite, printParams_eq]

lemma mem_qText (hn : n < 2 ^ 31) {c : Char} (hc : c ∈ qText n) : c.isDigit = true ∨ c = '.' := by
  rw [qText_natCast hn, List.mem_append] at hc
  rcases hc with hc | hc
  · exact Or.inl (isDigit_of_mem_utoa hc)
  · split at hc
    · rcases List.mem_cons.1 hc with rfl | hc
      · exact Or.inr rfl
      · exact Or.inl (isDigit_of_mem_utoa hc)
    · simp at hc

lemma qText_ne_nil (hn : n < 2 ^ 31) : qText n ≠ [] := by
  rw [qText_natCast hn]
  exact List.append_ne_nil_of_left_ne_nil (utoa_ne_nil _) _

lemma tokenSpec_of_isDigit {c : Char} (h : c.isDigit = true) : tokenSpec c = true := by
  rw [tokenSpec, spec, Char.isAlphanum, h, Bool.or_true, Bool.true_or]

lemma reads_addParam_q {value : Text} {q1000 : ℤ} (hne : value ≠ [])
    (h : Reads (parseQ value) s q1000 s) :
    Reads (hdr.addParam ⟨"q".toList, value⟩) s { hdr with q1000 := q1000 } s := by
  rw [ContactHdr.addParam, if_pos (stricmp_and_pos rfl hne)]
  exact h.bind (.pure _ _)

lemma reads_addParam_expires (hn : (n : ℤ) ≤ maxInt32) :
    Reads (hdr.addParam ⟨"expires".toList, utoa n⟩) s { hdr with expires := n } s := by
  rw [ContactHdr.addParam, if_neg (stricmp_and rfl), if_pos (stricmp_and_pos rfl (utoa_ne_nil n))]
  exact (reads_strtoiValidate hn).bind (.pure _ _)

lemma folds_contact_other (hdr : ContactHdr) {params : List Param}
    (h : ∀ q ∈ params, ∀ name ∈ ["q".toList, "expires".toList],
      stricmp q.name name = true → q.value = []) :
    Folds ContactHdr.addParam hdr params
      { hdr with other_param := hdr.other_param ++ params } := by
  induction params generalizing hdr with
  | nil =>
    rw [List.append_nil]
    exact .nil hdr
  | cons q params ih =>
    have hskip : ∀ name ∈ ["q".toList, "expires".toList],
        ¬(stricmp q.name name && decide (q.value ≠ [])) = true := by
      intro name hname hboth
      rw [Bool.and_eq_true, decide_eq_true_eq] at hboth
      exact hboth.2 (h q List.mem_cons_self name hname hboth.1)
    have htail := ih { hdr with other_param := hdr.other_param ++ [q] }
      fun q' hq' => h q' (List.mem_cons_of_mem _ hq')
    rw [List.append_assoc, List.singleton_append] at htail
    refine .cons (fun s => ?_) htail
    rw [ContactHdr.addParam, if_neg (hskip _ (by simp)), if_neg (hskip _ (by simp))]
    exact .pure _ _

/-- The `q` value. -/
lemma folds_q (h : hdr.Printable) :
    Folds ContactHdr.addParam { uri := hdr.uri.received .contactHdr }
      ((if hdr.q1000 ≠ 0 then [(⟨"q".toList, qText hdr.q1000⟩ : Param)] else []).map Param.read)
      { uri := hdr.uri.received .contactHdr, q1000 := receivedQ hdr.q1000 } := by
  obtain ⟨n, hn⟩ := Int.eq_ofNat_of_zero_le h.q1000.1
  have hlt : n < 2147483000 := by
    have hq := h.q1000.2
    rw [hn] at hq
    omega
  split
  · -- neither a digit nor the point is an escape
    have hmem : '%' ∉ qText hdr.q1000 := by
      intro hc
      rw [hn] at hc
      rcases mem_qText (by omega) hc with hc | hc
      · exact absurd hc (by decide)
      · exact absurd hc (by decide)
    have hread : (⟨"q".toList, qText hdr.q1000⟩ : Param).read = ⟨"q".toList, qText hdr.q1000⟩ :=
      Param.read_eq_self (by simp [hmem])
    rw [List.map_singleton, hread, hn]
    refine .cons (fun s => ?_) (.nil _)
    exact reads_addParam_q (qText_ne_nil (by omega)) (reads_q hlt)
  · next hzero =>
    rw [not_not.1 hzero]
    exact .nil _

lemma folds_expires (h : hdr.Printable) : Folds ContactHdr.addParam
    { uri := hdr.uri.received .contactHdr, q1000 := receivedQ hdr.q1000 }
    ((if 0 ≤ hdr.expires then [(⟨"expires".toList, utoa (toULong hdr.expires)⟩ : Param)]
      else []).map Param.read)
    { uri := hdr.uri.received .contactHdr, q1000 := receivedQ hdr.q1000,
      expires := hdr.expires } := by
  have hmax := h.expires.2
  split
  · next hpos =>
    obtain ⟨n, hn⟩ := Int.eq_ofNat_of_zero_le hpos
    rw [hn] at hmax ⊢
    -- what is printed of the expiry is the expiry
    have hlong : toULong n = n := toULong_natCast (by rw [maxInt32] at hmax; omega)
    have hmem : '%' ∉ utoa n := notMem_utoa rfl
    have hread : (⟨"expires".toList, utoa n⟩ : Param).read = ⟨"expires".toList, utoa n⟩ :=
      Param.read_eq_self (by simp [hmem])
    rw [List.map_singleton, hlong, hread]
    exact .cons (fun s => reads_addParam_expires hmax) (.nil _)
  · next hneg =>
    -- no expiry was printed: the one that is left is the default of the parser
    have hval : hdr.expires = -1 := by
      have hmin := h.expires.1
      omega
    rw [hval]
    exact .nil _

lemma folds_contact (h : hdr.Printable) :
    Folds ContactHdr.addParam { uri := hdr.uri.received .contactHdr }
      (hdr.written.map Param.read) hdr.received := by
  have hother : (hdr.other_param.map (Param.written tokenSpec)).map Param.read =
      hdr.other_param.map Param.read :=
    map_read_written paramSpec_token fun q hq => (h.other_param q hq).1
  rw [ContactHdr.written, List.map_append, List.map_append, hother]
  refine (folds_q h).append ((folds_expires h).append (folds_contact_other _ fun q hq => ?_))
  obtain ⟨q', hq', rfl⟩ := List.mem_map.1 hq
  exact (h.other_param q' hq').2

lemma written_contact (h : hdr.Printable) :
    ∀ q ∈ hdr.written, Written tokenSpec q.name q.value := by
  have hq : "q".toList ≠ [] ∧ ∀ c ∈ "q".toList, tokenSpec c = true := by decide
  have hexpires : "expires".toList ≠ [] ∧ ∀ c ∈ "expires".toList, tokenSpec c = true := by decide
  intro q hmem
  rw [ContactHdr.written, List.mem_append, List.mem_append] at hmem
  rcases hmem with hmem | hmem | hmem
  · split at hmem
    · obtain rfl := List.mem_singleton.1 hmem
      obtain ⟨n, hn⟩ := Int.eq_ofNat_of_zero_le h.q1000.1
      have hbound := h.q1000.2
      refine ⟨hq.1, hq.2, Or.inl fun c hc => ?_⟩
      have hc : c ∈ qText hdr.q1000 := hc
      rw [hn] at hc hbound
      rcases mem_qText (by omega) hc with hc | rfl
      · exact tokenSpec_of_isDigit hc
      · decide
    · simp at hmem
  · split at hmem
    · obtain rfl := List.mem_singleton.1 hmem
      exact ⟨hexpires.1, hexpires.2, Or.inl fun c hc =>
        tokenSpec_of_isDigit (isDigit_of_mem_utoa hc)⟩
    · simp at hmem
  · exact written_of_mem paramSpec_token (fun q hq => (h.other_param q hq).1) hmem

/-! ### The header -/

/-- One value that no comma follows. -/
lemma reads_commaList {α : Type} {p : Parser α} {x : α} (h : Reads p s x t) (ht : cur t ≠ ',') :
    Reads (parseCommaList p) s [x] t := by
  have hcond : (cur t == ',') = false := by simpa using ht
  exact h.bind (Loops.done hcond).reads_loop

/-- A Contact header is read as it was written, up to the fraction of its `q` value. -/
theorem reads_hdrContact (h : hdr.Printable) (hs : isSpace (cur s) = false) :
    Reads (parseHdrContact (H := H)) (hdr.value ++ '\r' :: '\n' :: s) [.contact hdr.received] s := by
  have hcrlf : Settled true ('\r' :: '\n' :: s) := settled_crlf hs
  have hends : EndsParam tokenSpec true ('\r' :: '\n' :: s) := ⟨rfl, by simp, hcrlf⟩
  have hloop := loops_params paramSpec_token (written_contact h) hends (by simp) (folds_contact h)
  have hsettled : Settled true (paramsText hdr.written ++ '\r' :: '\n' :: s) := by
    cases hdr.written with
    | nil => exact hcrlf
    | cons q params => exact settled_cons (by decide)
  have hstar : ¬cur (hdr.uri.print .contactHdr ++
      (paramsText hdr.written ++ '\r' :: '\n' :: s)) = '*' := by
    have hctx : Context.contactHdr ≠ .reqUri := by decide
    obtain ⟨c, v, htext, -, hc⟩ := cur_print hdr.uri
      (paramsText hdr.written ++ '\r' :: '\n' :: s) hctx
    rw [htext, cur_cons]
    rcases hc with rfl | rfl <;> decide
  have hcontact : Reads (parseContact (H := H)) (hdr.value ++ '\r' :: '\n' :: s)
      (.contact hdr.received) ('\r' :: '\n' :: s) := by
    rw [contact_value_eq, List.append_assoc]
    refine (Reads.curChar _).bind ?_
    rw [if_neg hstar]
    exact (reads_uriOrNameAddr h.uri (by decide) hsettled).bind (hloop.reads_loop.bind (.pure _ _))
  exact (reads_commaList hcontact (by simp)).bind ((reads_hdrEnd s).bind (.pure _ _))

end Sip.Wire
