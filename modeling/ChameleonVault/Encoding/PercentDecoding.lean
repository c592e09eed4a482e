import ChameleonVault.Encoding.Json
import ChameleonVault.Encoding.Percent
import ChameleonVault.Encoding.Utf8

/-! Reading a percent-encoded string back: what is not the UTF-8 text of a string is an error. -/

namespace ChameleonVault.Encoding

/-- A character that is not escaped stands for its own bytes. -/
def percentBytes : List Char → Option (List UInt8)
  | [] => some []
  | c :: cs =>
    if c = '%' then
      match cs with
      | high :: low :: cs => do
        let high ← Json.hexValue high
        let low ← Json.hexValue low
        let rest ← percentBytes cs
        return UInt8.ofNat (16 * high + low) :: rest
      | _ => none
    else (percentBytes cs).map (String.utf8EncodeChar c ++ ·)

def decodeURIComponent (s : String) : Option String := do
  let bs ← percentBytes s.toList
  let cs := Utf8.decode bs
  if Utf8.encode cs = bs then return String.ofList cs else none

lemma encodeByte_cases : ∀ b < 256,
    (∃ c, encodeByte b = [c] ∧ c ≠ '%' ∧ String.utf8EncodeChar c = [UInt8.ofNat b]) ∨
      ∃ high low, encodeByte b = ['%', high, low] ∧ Json.hexValue high = some (b / 16) ∧ Json.hexValue low = some (b % 16) := by
  have hsingle : ∀ b < 256, isUnreserved b = true →
      Char.ofNat b ≠ '%' ∧ String.utf8EncodeChar (Char.ofNat b) = [UInt8.ofNat b] := by decide +kernel
  have hescaped : ∀ b < 256, Json.hexValue (hexDigit (b / 16)) = some (b / 16) ∧
      Json.hexValue (hexDigit (b % 16)) = some (b % 16) := by decide +kernel
  intro b hb
  by_cases hu : isUnreserved b = true
  · exact .inl ⟨Char.ofNat b, if_pos hu, hsingle b hb hu⟩
  · exact .inr ⟨_, _, if_neg hu, hescaped b hb⟩

lemma percentBytes_encodeByte {b : ℕ} (hb : b < 256) (cs : List Char) :
    percentBytes (encodeByte b ++ cs) = (percentBytes cs).map (UInt8.ofNat b :: ·) := by
  obtain ⟨c, hc, hne, hutf8⟩ | ⟨high, low, hc, hhigh, hlow⟩ := encodeByte_cases b hb
  · rw [hc, List.singleton_append]
    conv_lhs => rw [percentBytes.eq_def]
    simp only [hne, if_false, hutf8]
    rfl
  · have hval : UInt8.ofNat (16 * (b / 16) + b % 16) = UInt8.ofNat b := congrArg UInt8.ofNat (Nat.div_add_mod b 16)
    rw [hc]
    cases hrest : percentBytes cs with
    | none => simp [percentBytes, hhigh, hlow, hrest]
    | some bs => simp only [percentBytes, hhigh, hlow, hrest, List.cons_append, List.nil_append, if_true,
        Option.bind_eq_bind, Option.bind_some, hval, Option.pure_def, Option.map_some]

lemma percentBytes_encode {bs : List ℕ} (hb : ∀ b ∈ bs, b < 256) :
    percentBytes (bs.flatMap encodeByte) = some (bs.map UInt8.ofNat) := by
  induction bs with
  | nil => rfl
  | cons b bs ih =>
    rw [List.flatMap_cons, percentBytes_encodeByte (hb b List.mem_cons_self),
      ih fun b hm => hb b (List.mem_cons_of_mem _ hm)]
    rfl

lemma bytes_eq (s : String) : (bytes s).map UInt8.ofNat = Utf8.encode s.toList := by
  have hid : UInt8.ofNat ∘ UInt8.toNat = id := funext fun b => UInt8.ofNat_toNat
  have hbytes : s.toUTF8 = (Utf8.encode s.toList).toByteArray := String.utf8Encode_toList.symm
  rw [bytes, List.map_map, hid, List.map_id, hbytes, List.data_toByteArray]

lemma decodeURIComponent_encode (s : String) : decodeURIComponent (encodeURIComponent s) = some s := by
  have hbytes : percentBytes (encodeURIComponent s).toList = some (Utf8.encode s.toList) := by
    rw [encodeURIComponent, String.toList_ofList, percentBytes_encode fun b => bytes_lt, bytes_eq]
  simp [decodeURIComponent, hbytes, Utf8.decode_encode]

end ChameleonVault.Encoding
