import Mathlib.Data.List.Basic
import Mathlib.Data.Nat.Digits.Lemmas

/-! Tagged values of ASN.1 and their distinguished encoding, for tags of one octet. -/

namespace ChameleonVault.Encoding

inductive TagClass where
  | universal | application | contextSpecific | privateUse
  deriving DecidableEq

structure Tag where
  cls : TagClass
  number : Fin 31
  deriving DecidableEq

inductive Der where
  | primitive (tag : Tag) (content : List UInt8)
  | constructed (tag : Tag) (children : List Der)

namespace Der

def universalTag (number : ℕ) (h : number < 31 := by decide) : Tag := ⟨.universal, ⟨number, h⟩⟩
def contextTag (number : ℕ) (h : number < 31 := by decide) : Tag := ⟨.contextSpecific, ⟨number, h⟩⟩

def integerTag : Tag := universalTag 2
def octetStringTag : Tag := universalTag 4
def objectIdTag : Tag := universalTag 6
def sequenceTag : Tag := universalTag 16
def setTag : Tag := universalTag 17
def contextTag0 : Tag := contextTag 0
def contextTag1 : Tag := contextTag 1

def tag : Der → Tag
  | primitive tag _ => tag
  | constructed tag _ => tag

def classBits : TagClass → ℕ
  | .universal => 0
  | .application => 64
  | .contextSpecific => 128
  | .privateUse => 192

def identifier (tag : Tag) (constructed : Bool) : UInt8 :=
  UInt8.ofNat (classBits tag.cls + (if constructed then 32 else 0) + tag.number)

def lengthOctets (n : ℕ) : List UInt8 :=
  if n < 128 then [UInt8.ofNat n]
  else UInt8.ofNat (128 + (Nat.digits 256 n).length) :: (Nat.digits 256 n).reverse.map UInt8.ofNat

def withLength (content : List UInt8) : List UInt8 := lengthOctets content.length ++ content

mutual

def encode : Der → List UInt8
  | primitive tag content => identifier tag false :: withLength content
  | constructed tag children => identifier tag true :: withLength (encodeAll children)

def encodeAll : List Der → List UInt8
  | [] => []
  | d :: ds => encode d ++ encodeAll ds

end

/-- The octets between the length and the end. -/
def content : Der → List UInt8
  | primitive _ content => content
  | constructed _ children => encodeAll children

lemma encode_eq (d : Der) : ∃ octet, encode d = octet :: withLength d.content := by
  cases d with
  | primitive tag content => exact ⟨_, by rw [encode, Der.content]⟩
  | constructed tag children => exact ⟨_, by rw [encode, Der.content]⟩

lemma lengthOctets_length_mono {n m : ℕ} (h : n ≤ m) : (lengthOctets n).length ≤ (lengthOctets m).length := by
  have hdigits : (Nat.digits 256 n).length ≤ (Nat.digits 256 m).length := Nat.le_length_digits_le 256 n m h
  simp only [lengthOctets]
  split <;> split
  · simp
  · simp
  · omega
  · simpa using hdigits

/-- The content can be told from its octets and their number. -/
lemma withLength_injective : Function.Injective withLength := by
  intro a b h
  have hlength := congrArg List.length h
  simp only [withLength, List.length_append] at hlength
  have hab : a.length = b.length := by
    rcases Nat.lt_trichotomy a.length b.length with hlt | heq | hgt
    · have hmono := lengthOctets_length_mono (Nat.le_of_lt hlt)
      omega
    · exact heq
    · have hmono := lengthOctets_length_mono (Nat.le_of_lt hgt)
      omega
  rw [withLength, withLength, hab] at h
  exact List.append_cancel_left h

end Der

end ChameleonVault.Encoding
