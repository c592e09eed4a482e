import ChameleonVault.Crypto.DeterministicAes

/-! The randomized cipher of the values that the pipelines write. -/

namespace ChameleonVault.Crypto

open Encoding

namespace ChameleonAesGcm

variable (p : Primitives)

structure EncryptionResult where
  ivB64 : String
  ciphertextB64 : String
  deriving DecidableEq

/-- The twelve random bytes are an argument. -/
def encrypt (iv : Bytes) (plaintext : JsString) (userId : String) (dek : Bytes) : Except String EncryptionResult := do
  DeterministicAES.checkDek dek
  let (ciphertext, authTag) := p.cipher dek iv (bufferFrom userId) (Utf16.toUtf8 plaintext)
  return ⟨String.ofList (Base64.encode iv), String.ofList (Base64.encode (ciphertext ++ authTag))⟩

def decrypt (ivB64 ciphertextB64 userId : String) (dek : Bytes) : Except String JsString := do
  DeterministicAES.checkDek dek
  let iv := Base64.decode ivB64.toList
  let combined := Base64.decode ciphertextB64.toList
  if combined.length < authTagSize then throw "Invalid ciphertext: too short"
  else
    let ciphertext := combined.take (combined.length - authTagSize)
    let authTag := combined.drop (combined.length - authTagSize)
    match p.decipher dek iv (bufferFrom userId) ciphertext authTag with
    | some plaintext => return Utf16.ofUtf8 plaintext
    | none => throw "Unsupported state or unable to authenticate data"

end ChameleonAesGcm

open ChameleonAesGcm

variable {p : Primitives} {iv dek : Bytes} {plaintext : JsString} {userId : String}
  {result : ChameleonAesGcm.EncryptionResult}

lemma ChameleonAesGcm.encrypt_ok_iff : ChameleonAesGcm.encrypt p iv plaintext userId dek = .ok result ↔
    dek.length = keySize ∧
      result = ⟨String.ofList (Base64.encode iv), String.ofList (Base64.encode
        ((p.cipher dek iv (bufferFrom userId) (Utf16.toUtf8 plaintext)).1 ++
          (p.cipher dek iv (bufferFrom userId) (Utf16.toUtf8 plaintext)).2))⟩ :=
  checkDek_ok_iff

lemma ChameleonAesGcm.decrypt_encrypt (hp : p.Lawful)
    (h : ChameleonAesGcm.encrypt p iv plaintext userId dek = .ok result) :
    ChameleonAesGcm.decrypt p result.ivB64 result.ciphertextB64 userId dek =
      .ok (Utf16.ofUtf8 (Utf16.toUtf8 plaintext)) := by
  obtain ⟨hdek, rfl⟩ := ChameleonAesGcm.encrypt_ok_iff.mp h
  set opened := p.cipher dek iv (bufferFrom userId) (Utf16.toUtf8 plaintext) with hopened
  have htag : opened.2.length = authTagSize := hp.tagLength _ _ _ _
  obtain ⟨hlong, htake, hdrop⟩ := @unpack_append opened.1 _ htag
  have hdecipher : p.decipher dek iv (bufferFrom userId) opened.1 opened.2 = some (Utf16.toUtf8 plaintext) :=
    hp.correct _ _ _ _
  rw [ChameleonAesGcm.decrypt, DeterministicAES.checkDek]
  simp only [String.toList_ofList, Base64.decode_encode]
  rw [if_pos hdek, if_neg hlong, htake, hdrop, hdecipher]
  rfl

end ChameleonVault.Crypto
