import ChameleonVault.Crypto.ChameleonAesGcm
import ChameleonVault.Crypto.RoundTrip

/-! The rows that a remote function asks to have decrypted, answered in one batch. -/

namespace ChameleonVault.DecryptedViews

open Crypto Encoding
open Deletion (Reply)
open KeyRegistry (Deks KeyData KeyMetadata getDocId initialVersion objectPrototypeNames truthy)

section Rows

structure Row where
  keyVersionId : String
  ivB64 : String
  ciphertextB64 : String
  userId : String
  tenantId : String
  deriving DecidableEq

def Row.docId (row : Row) : String := getDocId row.tenantId row.userId

/-- `key_id:iv_b64:ciphertext_b64`: what comes after the second colon is one part. -/
def ciphertextParts (rawCiphertext : String) : Option (String × String × String) :=
  match rawCiphertext.toList.splitOn ':' with
  | keyVersionId :: ivB64 :: part :: parts =>
    let ciphertextB64 := [':'].intercalate (part :: parts)
    if keyVersionId = [] ∨ ivB64 = [] ∨ ciphertextB64 = [] then none
    else some (String.ofList keyVersionId, String.ofList ivB64, String.ofList ciphertextB64)
  | _ => none

/-- The tests before the first read: a row that fails one is null. -/
def parseRow (rawCiphertext userId tenantId : Option String) : Option Row := do
  let rawCiphertext ← truthy rawCiphertext
  let userId ← truthy userId
  let (keyVersionId, ivB64, ciphertextB64) ← ciphertextParts rawCiphertext
  return ⟨keyVersionId, ivB64, ciphertextB64, userId, (truthy tenantId).getD "default-tenant"⟩

end Rows

section Handler

/-- What a row is decrypted with. Which strings name a document is Firestore's to say. -/
structure Vault where
  docs : String → Option KeyMetadata
  isDocumentId : String → Bool
  kms : Kms
  primitives : Primitives

variable (v : Vault)

def Vault.get (docId : String) : Except String (Option KeyMetadata) :=
  if v.isDocumentId docId then .ok (v.docs docId) else .error "INVALID_ARGUMENT"

def Vault.getKeyForUser (userId tenantId keyVersionId : String) : Except String (Option KeyData) := do
  let doc ← v.get (getDocId tenantId userId)
  KeyRegistry.getKeyForUser doc (some keyVersionId)

def Vault.openRow (row : Row) (keyData : KeyData) : Except String JsString := do
  let dek ← v.kms.unwrap keyData.encryptedDek row.tenantId
  ChameleonAesGcm.decrypt v.primitives row.ivB64 row.ciphertextB64 row.userId dek

/-- Only what follows the lookup of the key is caught. -/
def Vault.decryptPiiVaultValue (rawCiphertext userId tenantId : Option String) : Except String (Option JsString) :=
  match parseRow rawCiphertext userId tenantId with
  | none => .ok none
  | some row => do
    let keyData ← v.getKeyForUser row.userId row.tenantId row.keyVersionId
    return keyData.bind fun keyData => (v.openRow row keyData).toOption

/-- The arguments of a call: a missing one is read as `undefined`, which is tested like null. -/
abbrev RemoteCall := List (Option String)

def RemoteCall.row (call : RemoteCall) : Option Row :=
  parseRow (call.getD 0 none) (call.getD 1 none) (call.getD 2 none)

def Vault.decryptCall (call : RemoteCall) : Except String (Option JsString) :=
  v.decryptPiiVaultValue (call.getD 0 none) (call.getD 1 none) (call.getD 2 none)

structure RemoteFunctionRequest where
  authorized : Bool
  calls : Option (List RemoteCall)

/-- `POST /internal/decrypted-views/batch-decrypt` -/
def Vault.batchDecrypt (allowedCallerUniqueId : Option String) (request : RemoteFunctionRequest) :
    Reply (List (Option JsString)) :=
  if truthy allowedCallerUniqueId = none then .failed 503 "Decrypted views not configured"
  else if request.authorized = false then .failed 403 "Forbidden"
  else match request.calls with
    | none => .failed 400 "Malformed request: missing calls array"
    | some calls => match calls.mapM v.decryptCall with
      | .ok replies => .sent 200 replies
      | .error _ => .failed 500 "Batch decrypt failed"

end Handler

section Isolation

def KeepsKeys (data : KeyMetadata) : Prop :=
  data.status ≠ .shredded ∧ data.status ≠ .deleted ∧ data.deks.keys.length ≠ 0

instance (data : KeyMetadata) : Decidable (KeepsKeys data) := inferInstanceAs (Decidable (_ ∧ _))

def Vault.rowReply (v : Vault) (call : RemoteCall) : Option JsString := (v.decryptCall call).toOption.join

inductive Vault.Unreadable (v : Vault) (call : RemoteCall) : Prop
  | malformed (hrow : call.row = none)
  | rejected {row : Row} (hrow : call.row = some row)
      (hopen : ∀ keyData, v.getKeyForUser row.userId row.tenantId row.keyVersionId = .ok (some keyData) →
        (v.openRow row keyData).toOption = none)
  | illegal {row : Row} (hrow : call.row = some row) (hid : v.isDocumentId row.docId = false)
  | unknownUser {row : Row} (hrow : call.row = some row) (hdoc : v.docs row.docId = none)
  | shredded {row : Row} {data : KeyMetadata} (hrow : call.row = some row) (hdoc : v.docs row.docId = some data)
      (hdata : ¬KeepsKeys data)
  | unknownVersion {row : Row} {data : KeyMetadata} (hrow : call.row = some row) (hdoc : v.docs row.docId = some data)
      (hversion : data.deks.lookup row.keyVersionId = none)

/-- Every call has its own reply, and an unreadable row is null. -/
def Vault.Isolated (v : Vault) (allowedCaller : Option String) (calls : List RemoteCall) : Prop :=
  v.batchDecrypt allowedCaller ⟨true, some calls⟩ = .sent 200 (calls.map v.rowReply) ∧
    ∀ call ∈ calls, v.Unreadable call → v.rowReply call = none

/-- The lookup of the row's key does not throw. -/
def Vault.Answerable (v : Vault) (row : Row) : Prop :=
  v.isDocumentId row.docId = true ∧ ∀ data, v.docs row.docId = some data → KeepsKeys data →
    row.keyVersionId ∈ objectPrototypeNames → (data.deks.lookup row.keyVersionId).isSome = true

variable {v : Vault} {call : RemoteCall} {calls : List RemoteCall} {row : Row} {data : KeyMetadata}
  {allowedCaller : Option String} {ε α β : Type}

instance (v : Vault) (row : Row) : Decidable (v.Answerable row) :=
  inferInstanceAs (Decidable (v.isDocumentId row.docId = true ∧ ∀ data ∈ v.docs row.docId, KeepsKeys data →
    row.keyVersionId ∈ objectPrototypeNames → (data.deks.lookup row.keyVersionId).isSome = true))

lemma mapM_eq_ok_iff {f : α → Except ε β} {g : α → β} {xs : List α} :
    xs.mapM f = .ok (xs.map g) ↔ ∀ x ∈ xs, f x = .ok (g x) := by
  induction xs with
  | nil => simp [pure, Except.pure]
  | cons x xs ih =>
    rw [List.mapM_cons, List.forall_mem_cons, ← ih]
    cases hx : f x with
    | error e => simp [bind, Except.bind]
    | ok y =>
      cases hxs : xs.mapM f with
      | error e => simp [bind, Except.bind]
      | ok ys => simp [bind, Except.bind, pure, Except.pure]

lemma ne_empty_of_parts {raw keyVersionId ivB64 ciphertextB64 : String}
    (h : ciphertextParts raw = some (keyVersionId, ivB64, ciphertextB64)) : keyVersionId ≠ "" := by
  rw [ciphertextParts] at h
  split at h
  · rename_i version iv part parts hsplit
    rw [Option.ite_none_left_eq_some] at h
    obtain ⟨hne, h⟩ := h
    obtain ⟨rfl, -⟩ := Prod.mk.inj (Option.some.inj h)
    intro hempty
    have hnil : version = [] := by simpa using congrArg String.toList hempty
    exact hne (.inl hnil)
  · cases h

lemma version_ne_empty (h : call.row = some row) : row.keyVersionId ≠ "" := by
  rw [RemoteCall.row, parseRow] at h
  simp only [Option.bind_eq_bind, Option.bind_eq_some_iff] at h
  obtain ⟨raw, -, userId, -, ⟨keyVersionId, ivB64, ciphertextB64⟩, hparts, hrow⟩ := h
  obtain rfl := Option.some.inj hrow
  exact ne_empty_of_parts hparts

lemma decryptCall_of_none (h : call.row = none) : v.decryptCall call = .ok none := by
  have hparse : parseRow (call.getD 0 none) (call.getD 1 none) (call.getD 2 none) = none := h
  rw [Vault.decryptCall, Vault.decryptPiiVaultValue, hparse]

lemma decryptCall_of_row (h : call.row = some row) : v.decryptCall call =
    (v.getKeyForUser row.userId row.tenantId row.keyVersionId).map fun keyData =>
      keyData.bind fun keyData => (v.openRow row keyData).toOption := by
  have hparse : parseRow (call.getD 0 none) (call.getD 1 none) (call.getD 2 none) = some row := h
  rw [Vault.decryptCall, Vault.decryptPiiVaultValue, hparse]
  cases hkey : v.getKeyForUser row.userId row.tenantId row.keyVersionId with
  | ok keyData => simp [hkey, bind, Except.bind, Except.map, pure, Except.pure]
  | error e => simp [hkey, bind, Except.bind, Except.map]

lemma getKeyForUser_eq {version : String} (hne : version ≠ "") :
    KeyRegistry.getKeyForUser (some data) (some version) =
      if KeepsKeys data then
        match data.deks.lookup version with
        | some dek => if dek = [] then .ok none
          else .ok (some ⟨dek, data.activeDekId, (truthy data.encryptionVersion).getD "v1"⟩)
        | none => if version ∈ objectPrototypeNames then .error "ERR_INVALID_ARG_TYPE" else .ok none
      else .ok none := by
  have htruthy : truthy (some version) = some version := KeyRegistry.truthy_eq_some_iff.mpr ⟨rfl, hne⟩
  have hiff : (data.status = .shredded ∨ data.status = .deleted ∨ data.deks.keys.length = 0) ↔ ¬KeepsKeys data := by
    rw [KeepsKeys]
    tauto
  rw [KeyRegistry.getKeyForUser]
  by_cases hdata : KeepsKeys data
  · rw [if_pos hdata]
    cases hkey : data.deks.lookup version <;>
      simp only [hiff, htruthy, hdata, not_true_eq_false, ↓reduceIte, Option.orElse_some, hkey]
  · rw [if_neg hdata]
    simp only [hiff, hdata, not_false_eq_true, ↓reduceIte]

lemma getKeyForUser_of_illegal (hid : v.isDocumentId row.docId = false) :
    v.getKeyForUser row.userId row.tenantId row.keyVersionId = .error "INVALID_ARGUMENT" := by
  have hid' : v.isDocumentId (getDocId row.tenantId row.userId) = false := hid
  simp [Vault.getKeyForUser, Vault.get, hid', bind, Except.bind]

lemma getKeyForUser_of_legal (hid : v.isDocumentId row.docId = true) :
    v.getKeyForUser row.userId row.tenantId row.keyVersionId =
      KeyRegistry.getKeyForUser (v.docs row.docId) (some row.keyVersionId) := by
  have hid' : v.isDocumentId (getDocId row.tenantId row.userId) = true := hid
  simp [Vault.getKeyForUser, Vault.get, hid', bind, Except.bind, Row.docId]

lemma exists_key_iff (hne : row.keyVersionId ≠ "") :
    (∃ keyData, v.getKeyForUser row.userId row.tenantId row.keyVersionId = .ok keyData) ↔ v.Answerable row := by
  rw [Vault.Answerable]
  cases hid : v.isDocumentId row.docId with
  | false =>
    rw [getKeyForUser_of_illegal hid]
    constructor
    · rintro ⟨keyData, h⟩
      cases h
    · rintro ⟨h, -⟩
      cases h
  | true =>
    rw [getKeyForUser_of_legal hid]
    simp only [true_and]
    cases hdoc : v.docs row.docId with
    | none =>
      refine ⟨fun _ data h => ?_, fun _ => ⟨none, rfl⟩⟩
      cases h
    | some data =>
      simp only [Option.some.injEq, forall_eq']
      rw [getKeyForUser_eq hne]
      by_cases hkeeps : KeepsKeys data
      · rw [if_pos hkeeps]
        cases hlookup : data.deks.lookup row.keyVersionId with
        | some dek =>
          refine ⟨fun _ _ _ => rfl, fun _ => ?_⟩
          by_cases hdek : dek = []
          · exact ⟨none, if_pos hdek⟩
          · exact ⟨_, if_neg hdek⟩
        | none =>
          constructor
          · rintro ⟨keyData, h⟩ - hm
            rw [if_pos hm] at h
            cases h
          · intro h
            refine ⟨none, if_neg fun hm => ?_⟩
            cases h hkeeps hm
      · rw [if_neg hkeeps]
        exact ⟨fun _ hu => absurd hu hkeeps, fun _ => ⟨none, rfl⟩⟩

lemma decryptCall_eq_iff : v.decryptCall call = .ok (v.rowReply call) ↔
    ∀ row, call.row = some row → v.Answerable row := by
  rw [Vault.rowReply]
  cases hrow : call.row with
  | none =>
    rw [decryptCall_of_none hrow]
    refine ⟨fun _ row h => ?_, fun _ => rfl⟩
    cases h
  | some row =>
    rw [decryptCall_of_row hrow]
    simp only [Option.some.injEq, forall_eq']
    rw [← exists_key_iff (version_ne_empty hrow)]
    cases hkey : v.getKeyForUser row.userId row.tenantId row.keyVersionId with
    | ok keyData => exact ⟨fun _ => ⟨keyData, rfl⟩, fun _ => rfl⟩
    | error e =>
      constructor
      · intro h
        cases h
      · rintro ⟨keyData, h⟩
        cases h

lemma rowReply_of_rejected (hrow : call.row = some row) (hopen : ∀ keyData,
    v.getKeyForUser row.userId row.tenantId row.keyVersionId = .ok (some keyData) →
      (v.openRow row keyData).toOption = none) : v.rowReply call = none := by
  rw [Vault.rowReply, decryptCall_of_row hrow]
  cases hget : v.getKeyForUser row.userId row.tenantId row.keyVersionId with
  | error e => rfl
  | ok keyData =>
    cases keyData with
    | none => rfl
    | some keyData => exact hopen keyData hget

lemma rowReply_of_absent (hrow : call.row = some row) (habsent : ∀ data, v.docs row.docId = some data → KeepsKeys data →
    data.deks.lookup row.keyVersionId = none) : v.rowReply call = none := by
  refine rowReply_of_rejected hrow fun keyData hget => ?_
  cases hid : v.isDocumentId row.docId with
  | false =>
    rw [getKeyForUser_of_illegal hid] at hget
    cases hget
  | true =>
    rw [getKeyForUser_of_legal hid] at hget
    cases hdoc : v.docs row.docId with
    | none =>
      rw [hdoc] at hget
      cases hget
    | some data =>
      rw [hdoc, getKeyForUser_eq (version_ne_empty hrow)] at hget
      split at hget
      · rename_i hkeeps
        rw [habsent data hdoc hkeeps] at hget
        dsimp only at hget
        split at hget <;> cases hget
      · cases hget

lemma rowReply_of_unreadable (h : v.Unreadable call) : v.rowReply call = none := by
  cases h with
  | malformed hrow =>
    rw [Vault.rowReply, decryptCall_of_none hrow]
    rfl
  | rejected hrow hopen => exact rowReply_of_rejected hrow hopen
  | illegal hrow hid =>
    refine rowReply_of_rejected hrow fun keyData hget => ?_
    rw [getKeyForUser_of_illegal hid] at hget
    cases hget
  | unknownUser hrow hdoc =>
    refine rowReply_of_absent hrow fun data h => ?_
    cases hdoc.symm.trans h
  | shredded hrow hdoc hdata =>
    refine rowReply_of_absent hrow fun data h hkeeps => ?_
    obtain rfl := Option.some.inj (hdoc.symm.trans h)
    exact absurd hkeeps hdata
  | unknownVersion hrow hdoc hversion =>
    refine rowReply_of_absent hrow fun data h _ => ?_
    obtain rfl := Option.some.inj (hdoc.symm.trans h)
    exact hversion

/-- A value that was encrypted under a stored version comes back, however often it is asked for. -/
lemma rowReply_encrypted (hp : v.primitives.Lawful) (hrow : call.row = some row) (hid : v.isDocumentId row.docId = true)
    (hdoc : v.docs row.docId = some data) (hdata : KeepsKeys data) {encryptedDek dek iv : Bytes} {plaintext : JsString}
    (hversion : data.deks.lookup row.keyVersionId = some encryptedDek) (hne : encryptedDek ≠ [])
    (hunwrap : v.kms.unwrap encryptedDek row.tenantId = .ok dek)
    (hencrypt : ChameleonAesGcm.encrypt v.primitives iv plaintext row.userId dek = .ok ⟨row.ivB64, row.ciphertextB64⟩) :
    v.rowReply call = some (Utf16.ofUtf8 (Utf16.toUtf8 plaintext)) := by
  have hget : v.getKeyForUser row.userId row.tenantId row.keyVersionId =
      .ok (some ⟨encryptedDek, data.activeDekId, (truthy data.encryptionVersion).getD "v1"⟩) := by
    rw [getKeyForUser_of_legal hid, hdoc, getKeyForUser_eq (version_ne_empty hrow), if_pos hdata, hversion]
    exact if_neg hne
  have hdecrypt : ChameleonAesGcm.decrypt v.primitives row.ivB64 row.ciphertextB64 row.userId dek =
      .ok (Utf16.ofUtf8 (Utf16.toUtf8 plaintext)) := by
    rw [ChameleonAesGcm.decrypt_encrypt hp hencrypt]
  have hopen : ∀ keyData : KeyData, keyData.encryptedDek = encryptedDek →
      v.openRow row keyData = .ok (Utf16.ofUtf8 (Utf16.toUtf8 plaintext)) := by
    intro keyData hkey
    rw [Vault.openRow, hkey, hunwrap]
    simpa only [bind, Except.bind] using hdecrypt
  rw [Vault.rowReply, decryptCall_of_row hrow, hget]
  simp only [Except.map, Option.bind_some]
  rw [hopen _ rfl]
  simp only [Except.toOption, Option.join_some]

lemma batchDecrypt_eq_iff (hcaller : truthy allowedCaller ≠ none) :
    v.batchDecrypt allowedCaller ⟨true, some calls⟩ = .sent 200 (calls.map v.rowReply) ↔
      calls.mapM v.decryptCall = .ok (calls.map v.rowReply) := by
  rw [Vault.batchDecrypt]
  simp only [hcaller, ↓reduceIte, Bool.true_eq_false]
  cases hreplies : calls.mapM v.decryptCall with
  | ok replies => simp
  | error e => simp

theorem batch_isolated_iff (hcaller : truthy allowedCaller ≠ none) : v.Isolated allowedCaller calls ↔
    ∀ call ∈ calls, ∀ row, call.row = some row → v.Answerable row := by
  rw [Vault.Isolated]
  rw [batchDecrypt_eq_iff hcaller, mapM_eq_ok_iff, and_iff_left fun call _ => rowReply_of_unreadable]
  exact forall₂_congr fun call _ => decryptCall_eq_iff

end Isolation

section Examples

/-- A name of segments between slashes: with an even number of them it names a collection. -/
def isDocumentPath (docId : String) : Bool :=
  let segments := docId.toList.splitOn '/'
  segments.length % 2 == 1 && segments.all fun segment => segment ≠ [] && segment ≠ ['.'] && segment ≠ ['.', '.']

def storedKeys (docId : String) : Option KeyMetadata :=
  if docId = "acme:u1" then
    some { deks := initialVersion (0 :: List.replicate keySize 0), activeDekId := some "v1", status := .active }
  else if docId = "acme:u2" then some { status := .shredded }
  else none

def sampleVault : Vault := ⟨storedKeys, isDocumentPath, wrapping, framing⟩

def readableCall : RemoteCall := [some "v1:AA==:AXUBMQBoaQAAAAAAAAAAAAAAAAAAAAA=", some "u1", some "acme"]

def mixedCalls : List RemoteCall :=
  [readableCall, [some "no colons", some "u1", some "acme"], [some "v1:AA==:AAAA", some "u1", some "acme"],
    [some "v1:AA==:AAAA", some "u2", some "acme"], [some "v7:AA==:AAAA", some "u1", some "acme"],
    [some "v1:AA==:AAAA", some "u9", none], [none, none, none]]

theorem batch_isolated_mixed : truthy (some "bigquery") ≠ none ∧ sampleVault.Isolated (some "bigquery") mixedCalls := by
  refine ⟨by decide, (batch_isolated_iff (by decide)).mpr ?_⟩
  have hcalls : ∀ call ∈ mixedCalls, ∀ row ∈ call.row, sampleVault.Answerable row := by decide +kernel
  exact hcalls

theorem one_row_fails_batch : sampleVault.rowReply readableCall = some [104, 105] ∧
    ∀ call ∈ [[some "constructor:AA==:AAAA", some "u1", some "acme"], [some "v1:AA==:AAAA", some "a/b", some "acme"]],
      sampleVault.Unreadable call ∧
        sampleVault.batchDecrypt (some "bigquery") ⟨true, some [readableCall, call]⟩ =
          .failed 500 "Batch decrypt failed" ∧
        ¬sampleVault.Isolated (some "bigquery") [readableCall, call] := by
  have hfails : ∀ call ∈ [[some "constructor:AA==:AAAA", some "u1", some "acme"],
      [some "v1:AA==:AAAA", some "a/b", some "acme"]],
      sampleVault.batchDecrypt (some "bigquery") ⟨true, some [readableCall, call]⟩ =
        .failed 500 "Batch decrypt failed" := by decide +kernel
  refine ⟨by decide +kernel, fun call hm => ⟨?_, hfails call hm, fun h => ?_⟩⟩
  · rcases List.mem_cons.mp hm with rfl | hm
    · have hrow : RemoteCall.row [some "constructor:AA==:AAAA", some "u1", some "acme"] =
          some ⟨"constructor", "AA==", "AAAA", "u1", "acme"⟩ := by decide +kernel
      exact .unknownVersion hrow rfl rfl
    · obtain rfl := List.mem_singleton.mp hm
      have hrow : RemoteCall.row [some "v1:AA==:AAAA", some "a/b", some "acme"] =
          some ⟨"v1", "AA==", "AAAA", "a/b", "acme"⟩ := by decide +kernel
      exact .illegal hrow (by decide +kernel)
  · rw [Vault.Isolated, hfails call hm] at h
    cases h.1

end Examples

end ChameleonVault.DecryptedViews
