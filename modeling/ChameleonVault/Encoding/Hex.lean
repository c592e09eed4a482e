import ChameleonVault.Encoding.Json

/-! Bytes in lower-case hexadecimal, and the lenient reading of it. -/

namespace ChameleonVault.Encoding.Hex

def encode (bs : List UInt8) : List Char := bs.flatMap fun b => [Nat.digitChar (b.toNat / 16), Nat.digitChar (b.toNat % 16)]

/-- Reading stops at the first pair that is none of digits. -/
def decode : List Char → List UInt8
  | a :: b :: cs =>
    match Json.hexValue a, Json.hexValue b with
    | some x, some y => UInt8.ofNat (x * 16 + y) :: decode cs
    | _, _ => []
  | _ => []

lemma hexValue_digitChar : ∀ n < 16, Json.hexValue (Nat.digitChar n) = some n := by decide

lemma decode_encode (bs : List UInt8) : decode (encode bs) = bs := by
  induction bs with
  | nil => rfl
  | cons b bs ih =>
    have hb := b.toNat_lt
    have hvalue : b.toNat / 16 * 16 + b.toNat % 16 = b.toNat := by omega
    have hcons : encode (b :: bs) = Nat.digitChar (b.toNat / 16) :: Nat.digitChar (b.toNat % 16) :: encode bs := rfl
    rw [hcons, decode, hexValue_digitChar _ (by omega), hexValue_digitChar _ (by omega)]
    simp only [hvalue, UInt8.ofNat_toNat, ih]

end ChameleonVault.Encoding.Hex
