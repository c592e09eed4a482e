import ChameleonVault.Crypto.DeterministicAes
import ChameleonVault.Deletion.Routes

/-! The routes that generate and rotate keys and that encrypt and decrypt with them. -/

namespace ChameleonVault.Crypto

open Concurrency Call
open Deletion (Headers Reply validationFailed)
open KeyRegistry (Dek FirestoreRegistry.getKeyForUser KeyCall KeyData KeyOp Outcome OwnedOp Owner keyGenerate
  keyRotate truthy unavailable userIdSchema)

section Kms

structure Kms where
  keyName : String
  encrypt : (path : String) → (salt : ℕ) → (plaintext : Bytes) → Bytes
  decrypt : (path : String) → (ciphertext : Bytes) → Option Bytes

def Kms.getKeyPath (kms : Kms) (tenantId : String) : String :=
  if tenantId ≠ "" ∧ tenantId ≠ "default-tenant" then tenantId else kms.keyName

/-- What is assumed of Cloud KMS. -/
structure Kms.Lawful (kms : Kms) : Prop where
  unwraps (path : String) (salt : ℕ) (dek : Bytes) : kms.decrypt path (kms.encrypt path salt dek) = some dek
  nonempty (path : String) (salt : ℕ) (dek : Bytes) : kms.encrypt path salt dek ≠ []

/-- What `generateAndEncryptDek` may return: a fresh key, wrapped. -/
def Kms.Wraps (kms : Kms) (tenantId : String) (encryptedDek dek : Bytes) : Prop :=
  dek.length = keySize ∧ ∃ salt, encryptedDek = kms.encrypt (kms.getKeyPath tenantId) salt dek

end Kms

section Operations

/-- The key documents, by their ids. -/
abbrev Collection := KeyRegistry.Collection String

inductive VaultOp where
  | key (op : OwnedOp)
  | decryptDataEncryptionKey (encryptedDek : Dek) (tenantId : String)
  | recordEvent (eventType userId : String)

def VaultOp.Res : VaultOp → Type
  | .key op => op.op.Res
  | .decryptDataEncryptionKey _ _ => Bytes
  | .recordEvent _ _ => Unit

inductive VaultChoice where
  | key (outcome : Outcome)
  | done
  | fail
  deriving DecidableEq

def VaultChoice.outcome : VaultChoice → Option Outcome
  | .key outcome => some outcome
  | _ => none

def answered {α : Type} (value : Except String α) (s : Collection) : VaultChoice → Option (Except String α × Collection)
  | .done => some (value, s)
  | .fail => some (.error unavailable, s)
  | .key _ => none

def Kms.unwrap (kms : Kms) (encryptedDek : Dek) (tenantId : String) : Except String Bytes :=
  match kms.decrypt (kms.getKeyPath tenantId) encryptedDek with
  | some dek => .ok dek
  | none => .error "Cloud KMS decryption failed: no plaintext returned"

def VaultOp.exec (kms : Kms) : (op : VaultOp) → VaultChoice → Collection → Option (Except String op.Res × Collection)
  | .key op => fun choice s => choice.outcome.bind fun outcome => op.exec some outcome s
  | .decryptDataEncryptionKey encryptedDek tenantId => fun choice s => answered (kms.unwrap encryptedDek tenantId) s choice
  | .recordEvent _ _ => fun choice s => answered (.ok ()) s choice

/-- Every call may fail; a key that is generated comes wrapped by the service. -/
def answers (kms : Kms) (_ : Collection) : VaultOp → VaultChoice → Prop
  | .key ⟨owner, .generateAndEncryptDek⟩, .key (.dek bytes) => ∃ dek, kms.Wraps owner.tenantId bytes dek
  | _, _ => True

def VaultChoice.succeeds : VaultChoice → Prop
  | .key (.fail _) | .fail => False
  | _ => True

def steady (kms : Kms) (s : Collection) (op : VaultOp) (choice : VaultChoice) : Prop :=
  answers kms s op choice ∧ choice.succeeds

abbrev VaultCall := Call VaultOp VaultOp.Res String

def decryptDataEncryptionKey (encryptedDek : Dek) (tenantId : String) : VaultCall Bytes :=
  perform (VaultOp.decryptDataEncryptionKey encryptedDek tenantId)

def recordEvent (eventType userId : String) : VaultCall Unit := quietly (perform (VaultOp.recordEvent eventType userId))

def keyCall {α : Type} (owner : Owner) (x : KeyCall α) : VaultCall α :=
  ExceptT.mk (x.run.rename (fun op => .key ⟨owner, op⟩) fun _ reply => reply)

def ofExcept {α : Type} : Except String α → VaultCall α
  | .ok a => return a
  | .error e => throw e

end Operations

section Schemas

structure UserBody where
  userId : Option String := none
  userIdAlias : Option String := none
  deriving DecidableEq

def UserBody.user (body : UserBody) : String := ((truthy body.userId).or body.userIdAlias).getD ""

def UserBody.accepted (body : UserBody) : Bool :=
  body.userId.all userIdSchema && body.userIdAlias.all userIdSchema && (body.userId.isSome || body.userIdAlias.isSome)

/-- The length is that of the string in its units. -/
def plaintextSchema (plaintext : JsString) : Bool := decide (1 ≤ plaintext.length ∧ plaintext.length ≤ 10240)

/-- `/^v\d+:[A-Za-z0-9+/=]+$/` -/
def ciphertextPattern (ciphertext : String) : Bool :=
  match ciphertext.toList with
  | 'v' :: rest => !(rest.takeWhile Char.isDigit).isEmpty && match rest.dropWhile Char.isDigit with
    | ':' :: body => !body.isEmpty && body.all Encoding.Base64.isChar
    | _ => false
  | _ => false

def encryptSchema (body : UserBody) (plaintext : Option JsString) : Bool := body.accepted && plaintext.any plaintextSchema

def decryptSchema (body : UserBody) (ciphertext : Option String) : Bool := body.accepted && ciphertext.any ciphertextPattern

end Schemas

section Routes

variable (p : Primitives)

structure EncryptReply where
  ciphertext : String
  userId : String
  deriving DecidableEq

structure DecryptReply where
  plaintext : JsString
  userId : String
  deriving DecidableEq

def encryptFor (owner : Owner) (plaintext : JsString) : VaultCall (Reply EncryptReply) := do
  let keyData ← keyCall owner (KeyRegistry.FirestoreRegistry.getKeyForUser none)
  match keyData with
  | none => return .failed 404 "User key not found. Generate key first using POST /key/generate"
  | some keyData =>
    let dek ← decryptDataEncryptionKey keyData.encryptedDek owner.tenantId
    let ciphertext ← ofExcept (DeterministicAES.encrypt p plaintext owner.userId dek)
    recordEvent "ENCRYPTION_PERFORMED" owner.userId
    return .sent 200 ⟨keyData.activeDekId.getD "null" ++ ":" ++ ciphertext, owner.userId⟩

/-- `split(':', 2)` -/
def splitCiphertext (rawCiphertext : String) : String × String :=
  match rawCiphertext.toList.splitOn ':' with
  | keyVersionId :: actualCiphertext :: _ => (String.ofList keyVersionId, String.ofList actualCiphertext)
  | _ => (rawCiphertext, "")

def decryptFor (owner : Owner) (rawCiphertext : String) : VaultCall (Reply DecryptReply) := do
  let (keyVersionId, actualCiphertext) := splitCiphertext rawCiphertext
  if keyVersionId = "" ∨ actualCiphertext = "" then throw "Invalid ciphertext format"
  else
    let keyData ← keyCall owner (KeyRegistry.FirestoreRegistry.getKeyForUser (some keyVersionId))
    match keyData with
    | none => return .failed 404 "User key not found or has been shredded"
    | some keyData =>
      let dek ← decryptDataEncryptionKey keyData.encryptedDek owner.tenantId
      let plaintext ← ofExcept (DeterministicAES.decrypt p actualCiphertext owner.userId dek)
      recordEvent "DECRYPTION_PERFORMED" owner.userId
      return .sent 200 ⟨plaintext, owner.userId⟩

def ownerOf (headers : Headers) (body : UserBody) : Owner := ⟨headers.tenant, body.user⟩

/-- `POST /encrypt` -/
def encrypt (headers : Headers) (body : UserBody) (plaintext : Option JsString) : VaultCall (Reply EncryptReply) :=
  if encryptSchema body plaintext then
    tryCatch (encryptFor p (ownerOf headers body) (plaintext.getD [])) fun err =>
      return .failed 500 "Failed to encrypt plaintext" (some err)
  else return .failed 400 validationFailed

/-- `POST /decrypt` -/
def decrypt (headers : Headers) (body : UserBody) (ciphertext : Option String) : VaultCall (Reply DecryptReply) :=
  if decryptSchema body ciphertext then
    tryCatch (decryptFor p (ownerOf headers body) (ciphertext.getD "")) fun _ =>
      return .failed 400 "Failed to decrypt. Ciphertext may be invalid or tampered."
  else return .failed 400 validationFailed

def generateFor (owner : Owner) : VaultCall (Reply String) := do
  let status ← keyCall owner (keyGenerate owner.userId)
  if status = "EXISTS" then return .sent 200 status
  else
    recordEvent "KEY_CREATED" owner.userId
    return .sent 201 status

/-- `POST /key/generate` -/
def generate (headers : Headers) (body : UserBody) : VaultCall (Reply String) :=
  if body.accepted then
    tryCatch (generateFor (ownerOf headers body)) fun err => return .failed 500 "Failed to generate key" (some err)
  else return .failed 400 validationFailed

def rotateFor (owner : Owner) : VaultCall (Reply String) := do
  let _ ← keyCall owner keyRotate
  recordEvent "KEY_ROTATED" owner.userId
  return .sent 200 "ROTATED"

/-- `POST /key/rotate`, which answers a body that is not accepted as a failure of its own -/
def rotate (headers : Headers) (body : UserBody) : VaultCall (Reply String) :=
  if body.accepted then
    tryCatch (rotateFor (ownerOf headers body)) fun err =>
      if err = "User key not found for rotation" ∨ err = "Cannot rotate a shredded key" then
        return .failed 404 "User key not found or shredded"
      else return .failed 500 "Failed to rotate key"
  else return .failed 500 "Failed to rotate key"

end Routes

end ChameleonVault.Crypto
