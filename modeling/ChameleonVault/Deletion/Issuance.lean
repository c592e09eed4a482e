import ChameleonVault.Deletion.Operations

/-! Issuing a certificate: the signer reads the key and the request for itself, the claims enter
the tenant's chain, and the certificate goes to the evidence bucket. -/

namespace ChameleonVault.Deletion

open Concurrency Call
open KeyRegistry (Date KeyStatus)

def dateNow : Service Date := perform Op.dateNow
def signerKeyStatus (userId tenantId : String) : Service (Option KeyStatus) :=
  perform (Op.signerKeyStatus userId tenantId)
def signerDeletionRequest (id : String) : Service (Option DeletionRequest) :=
  perform (Op.signerDeletionRequest id)
def getManualRegistryEntriesForTenant (tenantId : String) : Service (List PiiRegistryEntry) :=
  perform (Op.getManualRegistryEntriesForTenant tenantId)
def getKeyFingerprint : Service String := perform Op.getKeyFingerprint
def getGhostDataFindings (id userId tenantId : String) : Service (List GhostDataSummary) :=
  perform (Op.getGhostDataFindings id userId tenantId)
def appendToChain (tenantId id : String) (claims : Claims) : Service ChainedCertificate :=
  perform (Op.appendToChain tenantId id claims)
def requestTimestamp (hash : String) : Service TsaTimestampInfo := perform (Op.requestTimestamp hash)
def recordTsaTimestamp (hash : String) (info : TsaTimestampInfo) : Service Unit :=
  perform (Op.recordTsaTimestamp hash info)
def publishCertificateHash (hash : String) (previousHash : Option String) : Service RekorLogEntryInfo :=
  perform (Op.publishCertificateHash hash previousHash)
def recordRekorEntry (hash : String) (info : RekorLogEntryInfo) : Service Unit :=
  perform (Op.recordRekorEntry hash info)
def uploadCertificate (userId id : String) (chained : ChainedCertificate) (tenantId : String)
    (tsaTimestamp : Option TsaTimestampInfo) (rekorEntry : Option RekorLogEntryInfo) : Service String :=
  perform (Op.uploadCertificate userId id chained tenantId tsaTimestamp rekorEntry)

namespace CertificateSigner

def assertKeyShredded (userId : String) (keyStatus : Option KeyStatus) : Except String KeyStatus :=
  match keyStatus with
  | some keyStatus =>
    if keyStatus.status = .shredded ∨ keyStatus.status = .deleted then .ok keyStatus
    else .error ("Cannot generate certificate: Key for user " ++ userId ++ " is not shredded.")
  | none => .error ("Cannot generate certificate: Key for user " ++ userId ++ " is not shredded.")

def assertCascadeComplete (userId : String) (request : Option DeletionRequest) : Except String DeletionRequest :=
  match request with
  | some request =>
    if request.status = .cascadeComplete ∨ request.status = .certificateIssued then .ok request
    else .error ("Cannot generate certificate: no completed deletion cascade found for user " ++ userId)
  | none => .error ("Cannot generate certificate: no completed deletion cascade found for user " ++ userId)

def assertReady (userId : String) (keyStatus : Option KeyStatus) (request : Option DeletionRequest) :
    Except String (KeyStatus × DeletionRequest) := do
  let keyStatus ← assertKeyShredded userId keyStatus
  let request ← assertCascadeComplete userId request
  return (keyStatus, request)

def generateClaims (id userId tenantId : String) (ghostDataSummary : List GhostDataSummary)
    (knownDestinationTypes : List String) : Service Claims := do
  let keyStatus ← signerKeyStatus userId tenantId
  let request ← signerDeletionRequest id
  match assertReady userId keyStatus request with
  | .error e => throw e
  | .ok (keyStatus, request) =>
    let checkedAt ← dateNow
    let manualEntries ← getManualRegistryEntriesForTenant tenantId
    let issuedAt ← dateNow
    let keyFingerprint ← getKeyFingerprint
    return claimsFor userId tenantId request keyStatus manualEntries ghostDataSummary
      knownDestinationTypes keyFingerprint checkedAt issuedAt

end CertificateSigner

namespace CertificateService

def timestamp (d : Deployment) (hash : String) : Service (Option TsaTimestampInfo) :=
  if d.tsa then do
    let info ← requestTimestamp hash
    quietly (recordTsaTimestamp hash info)
    return some info
  else return none

def publish (d : Deployment) (hash : String) (previousHash : Option String) : Service (Option RekorLogEntryInfo) :=
  if d.rekor then do
    let info ← publishCertificateHash hash previousHash
    quietly (recordRekorEntry hash info)
    return some info
  else return none

def issueAndStoreCertificate (d : Deployment) (userId id tenantId : String) : Service String := do
  let ghostDataSummary ← getGhostDataFindings id userId tenantId
  let baseClaims ← CertificateSigner.generateClaims id userId tenantId ghostDataSummary registeredConnectors
  let chained ← appendToChain tenantId id baseClaims
  let tsaTimestamp ← timestamp d chained.certificateHash
  let rekorEntry ← publish d chained.certificateHash chained.previousHash
  uploadCertificate userId id chained tenantId tsaTimestamp rekorEntry

end CertificateService

end ChameleonVault.Deletion
