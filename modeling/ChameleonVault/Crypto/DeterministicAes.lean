import ChameleonVault.Encoding.Base64
import ChameleonVault.Encoding.Utf16

/-! The packed ciphertext of `DeterministicAES`, over any authenticated cipher and any hash. -/

namespace ChameleonVault.Crypto

open Encoding

abbrev Bytes := List UInt8

/-- A string of the request, which may hold surrogates that stand alone. -/
abbrev JsString := List UInt16

section Primitives

/-- AES-256-GCM: from key, IV, associated data and plaintext to ciphertext and authentication tag, and back. -/
structure Primitives where
  sha256 : Bytes → Bytes
  cipher : (key iv aad plaintext : Bytes) → Bytes × Bytes
  decipher : (key iv aad ciphertext authTag : Bytes) → Option Bytes

def keySize : ℕ := 32

def ivSize : ℕ := 12

def authTagSize : ℕ := 16

/-- What is assumed of AES-256-GCM. -/
structure Primitives.Lawful (p : Primitives) : Prop where
  correct (key iv aad plaintext : Bytes) :
    p.decipher key iv aad (p.cipher key iv aad plaintext).1 (p.cipher key iv aad plaintext).2 = some plaintext
  tagLength (key iv aad plaintext : Bytes) : (p.cipher key iv aad plaintext).2.length = authTagSize
  authentic {key key' iv iv' aad aad' plaintext plaintext' : Bytes} :
    p.decipher key' iv' aad' (p.cipher key iv aad plaintext).1 (p.cipher key iv aad plaintext).2 = some plaintext' →
      aad' = aad

end Primitives

def bufferFrom (s : String) : Bytes := Utf8.encode s.toList

lemma bufferFrom_injective : Function.Injective bufferFrom := fun _ _ h =>
  String.toList_inj.mp (Utf8.encode_injective h)

namespace DeterministicAES

variable (p : Primitives)

def generateDeterministicIV (userId : String) : Bytes := (p.sha256 (bufferFrom userId)).take ivSize

def checkDek (dek : Bytes) : Except String Unit :=
  if dek.length = keySize then .ok ()
  else .error ("DEK must be " ++ toString keySize ++ " bytes, got " ++ toString dek.length)

def encrypt (plaintext : JsString) (userId : String) (dek : Bytes) : Except String String := do
  checkDek dek
  let (ciphertext, authTag) :=
    p.cipher dek (generateDeterministicIV p userId) (bufferFrom userId) (Utf16.toUtf8 plaintext)
  return String.ofList (Base64.encode (ciphertext ++ authTag))

def decrypt (ciphertextB64 : String) (userId : String) (dek : Bytes) : Except String JsString := do
  checkDek dek
  let combined := Base64.decode ciphertextB64.toList
  if combined.length < authTagSize then throw "Invalid ciphertext: too short"
  else
    let ciphertext := combined.take (combined.length - authTagSize)
    let authTag := combined.drop (combined.length - authTagSize)
    match p.decipher dek (generateDeterministicIV p userId) (bufferFrom userId) ciphertext authTag with
    | some plaintext => return Utf16.ofUtf8 plaintext
    | none => throw "Unsupported state or unable to authenticate data"

end DeterministicAES

section Packing

variable {p : Primitives} {plaintext : JsString} {userId other ciphertext : String} {dek dek' : Bytes}

open DeterministicAES

lemma checkDek_ok_iff {α : Type} {written result : α} :
    (checkDek dek >>= fun _ => Except.ok written) = .ok result ↔ dek.length = keySize ∧ result = written := by
  rw [checkDek]
  by_cases hdek : dek.length = keySize
  · rw [if_pos hdek]
    exact ⟨fun h => ⟨hdek, (Except.ok.inj h).symm⟩, fun h => congrArg Except.ok h.2.symm⟩
  · rw [if_neg hdek]
    constructor
    · intro h
      cases h
    · intro h
      exact absurd h.1 hdek

/-- The tag is taken off again by its length. -/
lemma unpack_append {body tag : Bytes} (h : tag.length = authTagSize) : ¬(body ++ tag).length < authTagSize ∧
    (body ++ tag).take ((body ++ tag).length - authTagSize) = body ∧
      (body ++ tag).drop ((body ++ tag).length - authTagSize) = tag := by
  rw [List.length_append, h, Nat.add_sub_cancel]
  exact ⟨by omega, List.take_left, List.drop_left⟩

def sealed (p : Primitives) (plaintext : JsString) (userId : String) (dek : Bytes) : Bytes × Bytes :=
  p.cipher dek (generateDeterministicIV p userId) (bufferFrom userId) (Utf16.toUtf8 plaintext)

def packed (p : Primitives) (plaintext : JsString) (userId : String) (dek : Bytes) : Bytes :=
  (sealed p plaintext userId dek).1 ++ (sealed p plaintext userId dek).2

lemma encrypt_ok_iff : encrypt p plaintext userId dek = .ok ciphertext ↔
    dek.length = keySize ∧ ciphertext = String.ofList (Base64.encode (packed p plaintext userId dek)) :=
  checkDek_ok_iff

/-- What the unpacking hands to the cipher is what the packing got from it. -/
lemma decrypt_packed (hp : p.Lawful) :
    decrypt p (String.ofList (Base64.encode (packed p plaintext userId dek))) other dek' = (do
      checkDek dek'
      match p.decipher dek' (generateDeterministicIV p other) (bufferFrom other) (sealed p plaintext userId dek).1
        (sealed p plaintext userId dek).2 with
      | some plaintext => return Utf16.ofUtf8 plaintext
      | none => throw "Unsupported state or unable to authenticate data") := by
  have htag : (sealed p plaintext userId dek).2.length = authTagSize := hp.tagLength _ _ _ _
  obtain ⟨hlong, htake, hdrop⟩ := @unpack_append (sealed p plaintext userId dek).1 _ htag
  rw [decrypt]
  simp only [String.toList_ofList, Base64.decode_encode]
  rw [packed, if_neg hlong, htake, hdrop]

lemma decrypt_encrypt (hp : p.Lawful) (h : encrypt p plaintext userId dek = .ok ciphertext) :
    decrypt p ciphertext userId dek = .ok (Utf16.ofUtf8 (Utf16.toUtf8 plaintext)) := by
  obtain ⟨hdek, rfl⟩ := encrypt_ok_iff.mp h
  rw [decrypt_packed hp, checkDek, if_pos hdek]
  simp only [sealed, hp.correct]
  rfl

lemma decrypt_of_other (hp : p.Lawful) (h : encrypt p plaintext userId dek = .ok ciphertext) (hne : other ≠ userId)
    (result : JsString) : decrypt p ciphertext other dek' ≠ .ok result := by
  obtain ⟨-, rfl⟩ := encrypt_ok_iff.mp h
  rw [decrypt_packed hp, checkDek]
  split
  · cases hopen : p.decipher dek' (generateDeterministicIV p other) (bufferFrom other) (sealed p plaintext userId dek).1
      (sealed p plaintext userId dek).2 with
    | none => nofun
    | some plaintext' => exact absurd (bufferFrom_injective (hp.authentic hopen)) hne
  · nofun

end Packing

end ChameleonVault.Crypto
