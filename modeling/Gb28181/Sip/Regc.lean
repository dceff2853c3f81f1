import Gb28181.Sip.Message

/-!
# The registration client of the SIP stack

The part of `pjsip_regc` on which the expiry of a registration depends: what becomes of the
`expires` with which a client is initialised, and the way of an Expires header over the wire.
The value is unsigned in the interface of the client, signed in the header, printed as an
`unsigned long` and read back with `pj_strtoul`.
-/

namespace Sip

open Lib

/-- `PJ_EINVAL`. -/
def einval : ℤ := 70004

/-- `PJSIP_REGC_EXPIRATION_NOT_SPECIFIED`. -/
def expirationNotSpecified : ℕ := 0xFFFFFFFF

/-- Conversion to a 32-bit unsigned integer. -/
def toUInt32 (z : ℤ) : ℕ := (z % 2 ^ 32).toNat

/-- Conversion to `unsigned long`. -/
def toULong (z : ℤ) : ℕ := (z % 2 ^ 64).toNat

/-- The results of the calls with which a client is made and used; 0 is `PJ_SUCCESS`.  That of
`pjsip_regc_init` is for the arguments that it does not refuse at once. -/
structure Regc where
  create : ℤ
  init : ℤ
  register : ℤ
  send : ℤ

/-- The result of `pjsip_regc_init`. -/
def Regc.initStatus (regc : Regc) (expires : ℕ) : ℤ := if expires = 0 then einval else regc.init

/-- `set_expires`, for a client whose `expires` field is `current`: the Expires header of its
requests. -/
def setExpiresHdr (current expires : ℕ) : Option ℤ :=
  if expires ≠ current then some (wrap32 expires) else none

/-! ### The header on the wire -/

/-- `pj_utoa`. -/
def utoa (val : ℕ) : Text := Nat.toDigits 10 val

/-- `pj_strtoul`. -/
def strtoul (s : Text) : ℕ :=
  (s.takeWhile Char.isDigit).foldl (fun value c => (value * 10 + (c.toNat - 48)) % 2 ^ 64) 0

/-- What `pjsip_generic_int_hdr_print` prints after the name of the header. -/
def printIntHdr (ivalue : ℤ) : Text := utoa (toULong ivalue)

/-- `parse_generic_int_hdr`. -/
def parseIntHdr (s : Text) : ℤ := wrap32 (strtoul s)

lemma strtoul_eq (s : Text) : strtoul s = leadingNat s % 2 ^ 64 := by
  suffices h : ∀ (t : Text) (v w : ℕ), w % 2 ^ 64 = v →
      t.foldl (fun value c => (value * 10 + (c.toNat - 48)) % 2 ^ 64) v =
        Nat.ofDigitChars 10 t w % 2 ^ 64 from h _ 0 0 rfl
  intro t
  induction t with
  | nil =>
    intro v w hv
    simpa [Nat.ofDigitChars] using hv.symm
  | cons c t ih =>
    intro v w hv
    rw [List.foldl_cons, Nat.ofDigitChars_cons]
    refine ih _ _ ?_
    have hzero : '0'.toNat = 48 := rfl
    rw [hzero]
    omega

lemma strtoul_utoa {n : ℕ} (h : n < 2 ^ 64) : strtoul (utoa n) = n := by
  have hread := leadingNat_toDigits n (s := []) (by simp)
  rw [List.append_nil] at hread
  rw [strtoul_eq, utoa, hread, Nat.mod_eq_of_lt h]

/-- A 32-bit value comes over the wire unchanged, whatever its sign. -/
theorem parseIntHdr_printIntHdr {v : ℤ} (h : IsInt32 v) : parseIntHdr (printIntHdr v) = v := by
  have hlt : toULong v < 2 ^ 64 := by
    rw [toULong]
    omega
  rw [parseIntHdr, printIntHdr, strtoul_utoa hlt]
  -- the conversion to `unsigned long` keeps the last 32 bits
  have hmod : (toULong v : ℤ) % 2 ^ 32 = v % 2 ^ 32 := by
    rw [toULong]
    omega
  rw [wrap32_congr hmod, wrap32_of_isInt32 h]

/-- So does one that was converted for the interface of the client. -/
lemma wrap32_toUInt32 {v : ℤ} (h : IsInt32 v) : wrap32 (toUInt32 v) = v := by
  have hmod : (toUInt32 v : ℤ) % 2 ^ 32 = v % 2 ^ 32 := by
    rw [toUInt32]
    omega
  rw [wrap32_congr hmod, wrap32_of_isInt32 h]

/-- The only 32-bit value that means that no expiry is specified. -/
lemma toUInt32_eq_notSpecified_iff {v : ℤ} (h : IsInt32 v) :
    toUInt32 v = expirationNotSpecified ↔ v = -1 := by
  obtain ⟨h₁, h₂⟩ := h
  rw [toUInt32, expirationNotSpecified]
  omega

/-- The Expires header of a client that has just been created. -/
lemma setExpiresHdr_toUInt32 {v : ℤ} (h : IsInt32 v) :
    setExpiresHdr expirationNotSpecified (toUInt32 v) = if v = -1 then none else some v := by
  rw [setExpiresHdr, wrap32_toUInt32 h]
  by_cases hv : v = -1
  · rw [if_pos hv, if_neg (not_not.2 ((toUInt32_eq_notSpecified_iff h).2 hv))]
  · rw [if_neg hv, if_pos (mt (toUInt32_eq_notSpecified_iff h).1 hv)]

end Sip
