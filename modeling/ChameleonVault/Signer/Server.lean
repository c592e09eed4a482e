import ChameleonVault.Deletion.Issuance

/-! The certificate signer as a service of its own: it reads the stores for itself, keeps two
caches of its signing key, and serves two endpoints whose link goes through the caller. -/

namespace ChameleonVault.Signer

open Concurrency Call Deletion
open KeyRegistry (Date KeyStatus truthy)

structure GenerateClaimsInput where
  userId : String
  tenantId : Option String := none
  deletionRequestId : Option String := none
  ghostDataSummary : List GhostDataSummary
  knownDestinationTypes : List String
  deriving DecidableEq

def GenerateClaimsInput.tenant (input : GenerateClaimsInput) : String := input.tenantId.getD defaultTenant

structure DestructionCertificateClaims where
  claims : Claims
  previousCertificateHash : Option String
  chainSequence : Option ℕ
  deriving DecidableEq

structure SignedCertificate where
  payload : DestructionCertificateClaims
  kid : String
  signature : String
  deriving DecidableEq

structure Digests where
  fingerprint : String → String
  certificate : SignedCertificate → String

inductive Request where
  | generateClaims (input : GenerateClaimsInput)
  | signClaims (body : DestructionCertificateClaims)
  | invalidateSigningKeyCache
  deriving DecidableEq

inductive Response where
  | claims (claims : Claims)
  | certificate (certificate : SignedCertificate) (certificateHash : String)
  | status (status : String)
  | error (error : String)
  deriving DecidableEq

structure State where
  stores : World
  currentVersion : Option (String × Date) := none
  fingerprints : AList (fun _ : String => String) := ∅

inductive Op where
  | verify (request : Request)
  | getKeyStatus (userId tenantId : String)
  | getDeletionRequest (id : String)
  | getLatestCompletedDeletionRequestForUser (userId tenantId : String)
  | getManualRegistryEntriesForTenant (tenantId : String)
  | dateNow
  | cachedVersion
  | getNewestEnabledVersion
  | cacheVersion (value : String)
  | invalidateVersion
  | cachedFingerprint (keyVersionPath : String)
  | getPublicKey (keyVersionPath : String)
  | cacheFingerprint (keyVersionPath fingerprint : String)
  | asymmetricSign (payload : DestructionCertificateClaims) (keyVersionPath : String)
  | sendJson (status : ℕ) (body : Response)

def Op.Res : Op → Type
  | .verify _ => Bool
  | .getKeyStatus _ _ => Option KeyStatus
  | .getDeletionRequest _ => Option DeletionRequest
  | .getLatestCompletedDeletionRequestForUser _ _ => Option DeletionRequest
  | .getManualRegistryEntriesForTenant _ => List PiiRegistryEntry
  | .dateNow => Date
  | .cachedVersion => Option String
  | .getNewestEnabledVersion => String
  | .cachedFingerprint _ => Option String
  | .getPublicKey _ => String
  | .asymmetricSign _ _ => String
  | _ => Unit

inductive Answer where
  | done
  | text (value : String)
  | failed
  deriving DecidableEq

def isComplete (status : Status) : Bool := status ∈ [.cascadeComplete, .certificateIssued]

def getLatestCompletedDeletionRequestForUser (userId tenantId : String) (w : World) : Option DeletionRequest :=
  newest <| w.requests.filter fun r => r.userId = userId ∧ r.tenantId = some tenantId ∧ isComplete r.status = true

def currentVersionTtlMs : ℕ := 5 * 60 * 1000

def State.cachedVersion (s : State) : Option String :=
  match s.currentVersion with
  | some (value, expiresAt) => if s.stores.clock < expiresAt then some value else none
  | none => none

def Op.exec : (op : Op) → Answer → State → Option (Except String op.Res × State)
  | .verify _, .done, s => some (.ok true, s)
  | .verify _, .failed, s => some (.ok false, s)
  | .getKeyStatus userId tenantId, .done, s => some (.ok (s.stores.getKeyStatus userId tenantId), s)
  | .getDeletionRequest id, .done, s => some (.ok (s.stores.deletionRequests.lookup id), s)
  | .getLatestCompletedDeletionRequestForUser userId tenantId, .done, s =>
    some (.ok (Signer.getLatestCompletedDeletionRequestForUser userId tenantId s.stores), s)
  | .getManualRegistryEntriesForTenant tenantId, .done, s =>
    some (.ok (s.stores.declarations.filter fun entry => entry.tenantId = some tenantId), s)
  | .dateNow, .done, s => some (.ok s.stores.clock, s)
  | .cachedVersion, .done, s => some (.ok s.cachedVersion, s)
  | .getNewestEnabledVersion, .text value, s => some (.ok value, s)
  | .cacheVersion value, .done, s =>
    some (.ok (), { s with currentVersion := some (value, s.stores.clock + currentVersionTtlMs) })
  | .invalidateVersion, .done, s => some (.ok (), { s with currentVersion := none })
  | .cachedFingerprint keyVersionPath, .done, s => some (.ok (s.fingerprints.lookup keyVersionPath), s)
  | .getPublicKey _, .text pem, s => some (.ok pem, s)
  | .cacheFingerprint keyVersionPath fingerprint, .done, s =>
    some (.ok (), { s with fingerprints := s.fingerprints.insert keyVersionPath fingerprint })
  | .asymmetricSign _ _, .text signature, s => some (.ok signature, s)
  | .sendJson _ _, .done, s => some (.ok (), s)
  | .getKeyStatus _ _, .failed, s => some (.error unavailable, s)
  | .getDeletionRequest _, .failed, s => some (.error unavailable, s)
  | .getLatestCompletedDeletionRequestForUser _ _, .failed, s => some (.error unavailable, s)
  | .getManualRegistryEntriesForTenant _, .failed, s => some (.error unavailable, s)
  | .getNewestEnabledVersion, .failed, s => some (.error unavailable, s)
  | .getPublicKey _, .failed, s => some (.error unavailable, s)
  | .asymmetricSign _ _, .failed, s => some (.error unavailable, s)
  | _, _, _ => none

abbrev Service := Call Op Op.Res String

def verify (request : Request) : Service Bool := perform (Op.verify request)
def sendJson (status : ℕ) (body : Response) : Service Unit := perform (Op.sendJson status body)

def getCurrentSigningKeyVersion : Service String := do
  let cached ← perform Op.cachedVersion
  match cached with
  | some value => return value
  | none =>
    let value ← perform Op.getNewestEnabledVersion
    perform (Op.cacheVersion value)
    return value

def getKeyFingerprint (k : Digests) : Service String := do
  let keyVersionPath ← getCurrentSigningKeyVersion
  let cached ← perform (Op.cachedFingerprint keyVersionPath)
  match cached with
  | some fingerprint => return fingerprint
  | none =>
    let pem ← perform (Op.getPublicKey keyVersionPath)
    let fingerprint := "sha256:" ++ k.fingerprint pem
    perform (Op.cacheFingerprint keyVersionPath fingerprint)
    return fingerprint

/-- An id that is given is read as it is; an empty one counts as not given. -/
def readRequest (input : GenerateClaimsInput) : Service (Option DeletionRequest) :=
  match truthy input.deletionRequestId with
  | some id => perform (Op.getDeletionRequest id)
  | none => perform (Op.getLatestCompletedDeletionRequestForUser input.userId input.tenant)

def generateClaims (k : Digests) (input : GenerateClaimsInput) : Service Claims := do
  let keyStatus ← perform (Op.getKeyStatus input.userId input.tenant)
  let request ← readRequest input
  match CertificateSigner.assertReady input.userId keyStatus request with
  | .error e => throw e
  | .ok (keyStatus, request) =>
    let checkedAt ← perform Op.dateNow
    let manualEntries ← perform (Op.getManualRegistryEntriesForTenant input.tenant)
    let issuedAt ← perform Op.dateNow
    let keyFingerprint ← getKeyFingerprint k
    return claimsFor input.userId input.tenant request keyStatus manualEntries input.ghostDataSummary
      input.knownDestinationTypes keyFingerprint checkedAt issuedAt

def signClaims (body : DestructionCertificateClaims) : Service SignedCertificate := do
  let keyVersionPath ← getCurrentSigningKeyVersion
  let signature ← perform (Op.asymmetricSign body keyVersionPath)
  return ⟨body, keyVersionPath, signature⟩

def serve (k : Digests) : Request → Service Unit
  | .generateClaims input => do
    let claims ← generateClaims k input
    sendJson 200 (.claims claims)
  | .signClaims body => do
    let certificate ← signClaims body
    sendJson 200 (.certificate certificate (k.certificate certificate))
  | .invalidateSigningKeyCache => do
    perform Op.invalidateVersion
    sendJson 200 (.status "ok")

def handleRequest (k : Digests) (request : Request) : Service Unit := do
  let authorized ← verify request
  if authorized then tryCatch (serve k request) fun error => sendJson 400 (.error error)
  else sendJson 401 (.error "unauthorized")

section Footprint

/-- The operations on the signing key and on what is cached of it. -/
def Op.isKeyWork : Op → Bool
  | .cachedVersion => true
  | .getNewestEnabledVersion => true
  | .cacheVersion _ => true
  | .cachedFingerprint _ => true
  | .getPublicKey _ => true
  | .cacheFingerprint _ _ => true
  | .asymmetricSign _ _ => true
  | _ => false

abbrev KeyWork (op : Op) : Prop := op.isKeyWork = true

lemma getCurrentSigningKeyVersion_keyWork : getCurrentSigningKeyVersion.run.Uses KeyWork := by
  refine uses_bind (uses_perform rfl) fun cached => ?_
  cases cached with
  | some value => exact uses_pure _
  | none => exact uses_bind (uses_perform rfl) fun _ => uses_bind (uses_perform rfl) fun _ => uses_pure _

lemma getKeyFingerprint_keyWork (k : Digests) : (getKeyFingerprint k).run.Uses KeyWork := by
  refine uses_bind getCurrentSigningKeyVersion_keyWork fun keyVersionPath => ?_
  refine uses_bind (uses_perform rfl) fun cached => ?_
  cases cached with
  | some fingerprint => exact uses_pure _
  | none => exact uses_bind (uses_perform rfl) fun _ => uses_bind (uses_perform rfl) fun _ => uses_pure _

end Footprint

/-- Between its operations the stores may become anything. -/
abbrev signer (k : Digests) : Interleaving where
  State := State
  Op := Op
  Ret := fun op => Except String op.Res
  Choice := Answer
  Env := World
  Job := Request
  exec := Op.exec
  env := fun w s => some { s with stores := w }
  body := fun request => (handleRequest k request).run.bind fun _ => .done ()
  forks := fun _ _ => []
  client := fun _ => true

end ChameleonVault.Signer
