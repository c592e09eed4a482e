import ChameleonVault.Encoding.Utf8

/-! Strings of 16-bit units, in which a surrogate may stand alone, and their bytes. -/

namespace ChameleonVault.Encoding.Utf16

open Utf8 (replacement)

section Units

def isHigh (u : UInt16) : Bool := 0xD800 ≤ u.toNat && u.toNat ≤ 0xDBFF

def isLow (u : UInt16) : Bool := 0xDC00 ≤ u.toNat && u.toNat ≤ 0xDFFF

def isLone (u : UInt16) : Bool := isHigh u || isLow u

def single (u : UInt16) : Char := if isLone u then replacement else Char.ofNat u.toNat

def pair (u v : UInt16) : Char := Char.ofNat (0x10000 + (u.toNat - 0xD800) * 0x400 + (v.toNat - 0xDC00))

/-- The characters of the string; a surrogate that stands alone counts as the replacement character. -/
def chars : List UInt16 → List Char
  | [] => []
  | [u] => [single u]
  | u :: v :: us => if isHigh u && isLow v then pair u v :: chars us else single u :: chars (v :: us)

def units (c : Char) : List UInt16 :=
  if c.toNat < 0x10000 then [UInt16.ofNat c.toNat]
  else [UInt16.ofNat (0xD800 + (c.toNat - 0x10000) / 0x400), UInt16.ofNat (0xDC00 + (c.toNat - 0x10000) % 0x400)]

def ofChars (cs : List Char) : List UInt16 := cs.flatMap units

def isWellFormed : List UInt16 → Bool
  | [] => true
  | [u] => !isLone u
  | u :: v :: us => if isHigh u && isLow v then isWellFormed us else !isLone u && isWellFormed (v :: us)

def toUtf8 (us : List UInt16) : List UInt8 := Utf8.encode (chars us)

def ofUtf8 (bs : List UInt8) : List UInt16 := ofChars (Utf8.decode bs)

end Units

section RoundTrip

variable {u v : UInt16} {us : List UInt16}

lemma toNat_ofNat {n : ℕ} (h : n < 0xD800 ∨ 0xDFFF < n ∧ n < 0x110000) : (Char.ofNat n).toNat = n := by
  have hvalid : n.isValidChar := h
  rw [Char.ofNat, dif_pos hvalid]
  rfl

lemma units_pair (hu : isHigh u = true) (hv : isLow v = true) : units (pair u v) = [u, v] := by
  simp only [isHigh, isLow, Bool.and_eq_true, decide_eq_true_eq] at hu hv
  have hvalue : (pair u v).toNat = 0x10000 + (u.toNat - 0xD800) * 0x400 + (v.toNat - 0xDC00) :=
    toNat_ofNat (by omega)
  have hhigh : 0xD800 + (0x10000 + (u.toNat - 0xD800) * 0x400 + (v.toNat - 0xDC00) - 0x10000) / 0x400 = u.toNat := by
    omega
  have hlow : 0xDC00 + (0x10000 + (u.toNat - 0xD800) * 0x400 + (v.toNat - 0xDC00) - 0x10000) % 0x400 = v.toNat := by
    omega
  rw [units, hvalue, if_neg (by omega), hhigh, hlow, UInt16.ofNat_toNat, UInt16.ofNat_toNat]

lemma units_single : units (single u) = [if isLone u then 0xFFFD else u] := by
  have hbound : u.toNat < 0x10000 := u.toNat_lt
  by_cases hlone : isLone u = true
  · rw [single, if_pos hlone, if_pos hlone]
    rfl
  · rw [single, if_neg hlone, if_neg hlone]
    simp only [isLone, isHigh, isLow, Bool.or_eq_true, Bool.and_eq_true, decide_eq_true_eq, not_or, not_and] at hlone
    have hvalue : (Char.ofNat u.toNat).toNat = u.toNat := toNat_ofNat (by omega)
    rw [units, hvalue, if_pos hbound, UInt16.ofNat_toNat]

lemma replaced_iff : (isLone u = true → 0xFFFD = u) ↔ isLone u = false := by
  cases hlone : isLone u with
  | false => simp
  | true =>
    simp only [true_imp_iff, Bool.true_eq_false, iff_false]
    rintro rfl
    exact absurd hlone (by decide)

/-- Only the surrogates that stand alone are lost on the way to the bytes and back. -/
lemma ofUtf8_toUtf8_iff (us : List UInt16) : ofUtf8 (toUtf8 us) = us ↔ isWellFormed us = true := by
  rw [ofUtf8, toUtf8, Utf8.decode_encode, ofChars]
  induction us using chars.induct with
  | case1 => simp [chars, isWellFormed]
  | case2 u => simp [chars, isWellFormed, units_single, replaced_iff]
  | case3 u v us h ih =>
    obtain ⟨hu, hv⟩ := (Bool.and_eq_true _ _).mp h
    simp [chars, isWellFormed, h, units_pair hu hv, ih]
  | case4 u v us h ih => simp [chars, isWellFormed, h, units_single, replaced_iff, ih]

lemma chars_units (c : Char) (us : List UInt16) : chars (units c ++ us) = c :: chars us := by
  have hvalid : c.toNat < 0xD800 ∨ 0xDFFF < c.toNat ∧ c.toNat < 0x110000 := c.valid
  by_cases hsmall : c.toNat < 0x10000
  · have hu : (UInt16.ofNat c.toNat).toNat = c.toNat := UInt16.toNat_ofNat_of_lt' hsmall
    have hlone : isLone (UInt16.ofNat c.toNat) = false := by
      simp only [isLone, isHigh, isLow, hu, Bool.or_eq_false_iff, Bool.and_eq_false_iff, decide_eq_false_iff_not]
      omega
    have hhigh : isHigh (UInt16.ofNat c.toNat) = false := (Bool.or_eq_false_iff.mp hlone).1
    have hsingle : single (UInt16.ofNat c.toNat) = c := by
      rw [single, hlone, if_neg Bool.false_ne_true, hu, Char.ofNat_toNat]
    rw [units, if_pos hsmall]
    cases us with
    | nil => simp [chars, hsingle]
    | cons v us => simp [chars, hhigh, hsingle]
  · have hh : (UInt16.ofNat (0xD800 + (c.toNat - 0x10000) / 0x400)).toNat = 0xD800 + (c.toNat - 0x10000) / 0x400 :=
      UInt16.toNat_ofNat_of_lt' (by simp [UInt16.size]; omega)
    have hl : (UInt16.ofNat (0xDC00 + (c.toNat - 0x10000) % 0x400)).toNat = 0xDC00 + (c.toNat - 0x10000) % 0x400 :=
      UInt16.toNat_ofNat_of_lt' (by simp [UInt16.size]; omega)
    have hhigh : isHigh (UInt16.ofNat (0xD800 + (c.toNat - 0x10000) / 0x400)) = true := by
      simp only [isHigh, hh, Bool.and_eq_true, decide_eq_true_eq]
      omega
    have hlow : isLow (UInt16.ofNat (0xDC00 + (c.toNat - 0x10000) % 0x400)) = true := by
      simp only [isLow, hl, Bool.and_eq_true, decide_eq_true_eq]
      omega
    have hpair : pair (UInt16.ofNat (0xD800 + (c.toNat - 0x10000) / 0x400))
        (UInt16.ofNat (0xDC00 + (c.toNat - 0x10000) % 0x400)) = c := by
      rw [pair, hh, hl, show 0x10000 + (0xD800 + (c.toNat - 0x10000) / 0x400 - 0xD800) * 0x400 +
        (0xDC00 + (c.toNat - 0x10000) % 0x400 - 0xDC00) = c.toNat by omega, Char.ofNat_toNat]
    rw [units, if_neg hsmall, List.cons_append, List.cons_append, List.nil_append, chars, hhigh, hlow, Bool.and_self,
      if_pos rfl, hpair]

lemma chars_ofChars (cs : List Char) : chars (ofChars cs) = cs := by
  induction cs with
  | nil => rfl
  | cons c cs ih =>
    have hcons : ofChars (c :: cs) = units c ++ ofChars cs := List.flatMap_cons
    rw [hcons, chars_units, ih]

end RoundTrip

end ChameleonVault.Encoding.Utf16
