import ChameleonVault.Collections.DocumentPaths
import ChameleonVault.Concurrency.Invariants
import ChameleonVault.Deletion.Certificates

/-! The stores and services around a deletion request, and the operations on them that the
deletion service awaits. Each is atomic; what comes from outside is an answer. -/

namespace ChameleonVault.Deletion

open Collections Concurrency
open KeyRegistry (Date Dek Deks KeyMetadata KeyStatus KeyWrite getDocId)

structure World where
  clock : Date
  deletionRequests : AList (fun _ : String => DeletionRequest)
  keyRegistry : AList (fun _ : String => KeyMetadata)
  registryEntries : List PiiRegistryEntry
  declarations : List PiiRegistryEntry
  certificateChain : AList (fun _ : DocumentPath => CertificateChainState)
  chainEntries : AList (fun _ : String => CertificateChainEntry)
  bucket : AList (fun _ : String => StoredCertificate)

structure Deployment where
  bucketName : String
  datePath : Date → String
  sha256 : Certificate → String
  -- what the store reads in an id
  document : String → Option DocumentPath
  tsa : Bool
  rekor : Bool
  sourceRedaction : Bool

/-- A tenant whose id names no document is refused by the signer, which reads its key first. -/
def Deployment.chainDocument (d : Deployment) (tenantId : String) : DocumentPath := (d.document tenantId).getD []

inductive ClaimResult where
  | claimed
  | lost (current : DeletionRequest)

structure ChainedCertificate where
  certificate : Certificate
  certificateHash : String
  previousHash : Option String
  sequence : ℕ

structure LineageEvent where
  eventType : String
  userId : String
  tenantId : String
  source : String
  destination : String
  operationId : Option String := none
  deletionRequestId : Option String := none
  context : List String := []

/-- The wipes and statements are told on whose behalf they run: the request they serve. -/
inductive Op where
  | getDeletionRequest (id : String)
  | getActiveDeletionRequestForUser (userId tenantId : String)
  | createDeletionRequest (userId operationId tenantId : String) (requestedBy : Option String)
  | claimTransition (id : String) (allowedFromStatuses : List Status) (newStatus : Status)
  | updateDeletionRequestStatus (id : String) (newStatus : Status)
  | updateDeletionRequestFields (id : String) (fields : UpdateFields)
  | updateJanitorWipeStatus (id destination : String) (status : WipeStatus) (details : WipeDetails)
  | getKeyStatus (userId tenantId : String)
  | shredKeyForUser (userId tenantId id : String)
  | buildPlan (id tenantId : String) (tasks : List JanitorTask)
  | launchCascade (id : String) (request : DeletionRequest) (tenantId operationId : String) (plan : Plan)
  | wipe (id destination userId tenantId : String)
  | runQuery (id destination : String) (query : Query)
  | recordEvent (event : LineageEvent)
  | publishFailedWipe (userId destination error : String)
  | dateNow
  | getGhostDataFindings (id userId tenantId : String)
  | signerKeyStatus (userId tenantId : String)
  | signerDeletionRequest (id : String)
  | getManualRegistryEntriesForTenant (tenantId : String)
  | getKeyFingerprint
  | appendToChain (tenantId id : String) (claims : Claims)
  | requestTimestamp (hash : String)
  | recordTsaTimestamp (hash : String) (info : TsaTimestampInfo)
  | publishCertificateHash (hash : String) (previousHash : Option String)
  | recordRekorEntry (hash : String) (info : RekorLogEntryInfo)
  | uploadCertificate (userId id : String) (chained : ChainedCertificate) (tenantId : String)
      (tsaTimestamp : Option TsaTimestampInfo) (rekorEntry : Option RekorLogEntryInfo)

def Op.Res : Op → Type
  | .getDeletionRequest _ => Option DeletionRequest
  | .getActiveDeletionRequestForUser _ _ => Option DeletionRequest
  | .createDeletionRequest _ _ _ _ => DeletionRequest
  | .claimTransition _ _ _ => ClaimResult
  | .getKeyStatus _ _ => Option KeyStatus
  | .buildPlan _ _ _ => Plan
  | .launchCascade _ _ _ _ _ => List PiiRegistryEntry × List PiiRegistryEntry
  | .wipe _ _ _ _ => WipeResult
  | .runQuery _ _ _ => ℕ
  | .dateNow => Date
  | .getGhostDataFindings _ _ _ => List GhostDataSummary
  | .signerKeyStatus _ _ => Option KeyStatus
  | .signerDeletionRequest _ => Option DeletionRequest
  | .getManualRegistryEntriesForTenant _ => List PiiRegistryEntry
  | .getKeyFingerprint => String
  | .appendToChain _ _ _ => ChainedCertificate
  | .requestTimestamp _ => TsaTimestampInfo
  | .publishCertificateHash _ _ => RekorLogEntryInfo
  | .uploadCertificate _ _ _ _ _ _ => String
  | _ => Unit

/-- What the outside world contributes. An attempt on an external system finds some records
there, whatever it then reports. -/
inductive Answer where
  | none
  | wiped (found : ℕ) (result : Except String WipeResult)
  | rows (affected : ℕ) (failure : Option String)
  | findings (ghostDataSummary : List GhostDataSummary)
  | text (value : String)
  | signed (keyVersion signature : String)
  | stamped (info : TsaTimestampInfo)
  | published (info : RekorLogEntryInfo)

/-- An unconfirmed operation took effect, but its caller saw an error. -/
inductive Outcome where
  | done (answer : Answer)
  | failed
  | unconfirmed (answer : Answer)

def unavailable : String := "UNAVAILABLE"

/-- Newest first, then by document name, as the query orders them. -/
def newer (a b : DeletionRequest) : Bool :=
  b.createdAt < a.createdAt || (b.createdAt = a.createdAt && b.deletionRequestId < a.deletionRequestId)

def newest : List DeletionRequest → Option DeletionRequest
  | [] => none
  | r :: rs =>
    match newest rs with
    | none => some r
    | some q => if newer q r then some q else some r

namespace World

def requests (w : World) : List DeletionRequest := w.deletionRequests.entries.map Sigma.snd

def getActiveDeletionRequestForUser (userId tenantId : String) (w : World) : Option DeletionRequest :=
  newest <| w.requests.filter fun r => r.userId = userId ∧ r.tenantId = some tenantId ∧ r.isActive = true

def putRequest (id : String) (request : DeletionRequest) (w : World) : World :=
  { w with deletionRequests := w.deletionRequests.insert id request }

def createDeletionRequest (userId id tenantId : String) (requestedBy : Option String) (w : World) :
    DeletionRequest × World :=
  match w.deletionRequests.lookup id with
  | some request => (request, w)
  | none =>
    let request := DeletionRequest.new userId id tenantId requestedBy w.clock
    (request, w.putRequest id request)

def notFound (id : String) : String := "Deletion request " ++ id ++ " not found"

def claimTransition (id : String) (allowedFromStatuses : List Status) (newStatus : Status) (w : World) :
    Except String (ClaimResult × World) :=
  match w.deletionRequests.lookup id with
  | none => .error (notFound id)
  | some current =>
    if current.status ∈ allowedFromStatuses then
      .ok (.claimed, w.putRequest id (current.writeStatus newStatus w.clock))
    else .ok (.lost current, w)

def updateRequest (id missing : String) (f : DeletionRequest → DeletionRequest) (w : World) :
    Except String (Unit × World) :=
  match w.deletionRequests.lookup id with
  | none => .error missing
  | some request => .ok ((), w.putRequest id (f request))

def updateDeletionRequestStatus (id : String) (newStatus : Status) (w : World) : Except String (Unit × World) :=
  w.updateRequest id "NOT_FOUND" (·.writeStatus newStatus w.clock)

def updateDeletionRequestFields (id : String) (fields : UpdateFields) (w : World) :
    Except String (Unit × World) :=
  if fields = {} then .ok ((), w) else w.updateRequest id "NOT_FOUND" (·.writeFields fields)

def updateJanitorWipeStatus (id destination : String) (status : WipeStatus) (details : WipeDetails)
    (w : World) : Except String (Unit × World) :=
  w.updateRequest id (notFound id) (·.writeWipe ⟨destination, status, w.clock, details⟩)

def keyDoc (userId tenantId : String) (w : World) : Option KeyMetadata :=
  w.keyRegistry.lookup (getDocId tenantId userId)

def getKeyStatus (userId tenantId : String) (w : World) : Option KeyStatus :=
  KeyRegistry.getKeyStatus w.clock (w.keyDoc userId tenantId)

def writeKey (userId tenantId : String) (write : KeyWrite) (w : World) : Except String (Unit × World) := do
  let data ← write.apply w.clock (w.keyDoc userId tenantId)
  return ((), { w with keyRegistry := w.keyRegistry.insert (getDocId tenantId userId) data })

def appendToChain (d : Deployment) (tenantId id : String) (claims : Claims) (keyVersion signature : String)
    (w : World) : ChainedCertificate × World :=
  let current := w.certificateChain.lookup (d.chainDocument tenantId)
  let previousHash := current.bind (·.lastHash)
  let sequence := ((current.map (·.sequence)).getD 0) + 1
  let certificate : Certificate := ⟨claims, previousHash, sequence, keyVersion, signature⟩
  let hash := d.sha256 certificate
  (⟨certificate, hash, previousHash, sequence⟩, { w with
    certificateChain := w.certificateChain.insert (d.chainDocument tenantId) ⟨sequence, some hash, some id, w.clock⟩
    chainEntries := w.chainEntries.insert hash
      { tenantId := tenantId, sequence := sequence, previousHash := previousHash,
        deletionRequestId := id, createdAt := w.clock } })

def updateEntry (hash : String) (f : CertificateChainEntry → CertificateChainEntry) (w : World) :
    Except String (Unit × World) :=
  match w.chainEntries.lookup hash with
  | none => .error "NOT_FOUND"
  | some entry => .ok ((), { w with chainEntries := w.chainEntries.insert hash (f entry) })

def certPath (d : Deployment) (tenantId id : String) (now : Date) : String :=
  "certificates/" ++ tenantId ++ "/" ++ d.datePath now ++ "/certificate-" ++ id ++ ".json"

def uploadCertificate (d : Deployment) (userId id : String) (chained : ChainedCertificate) (tenantId : String)
    (tsaTimestamp : Option TsaTimestampInfo) (rekorEntry : Option RekorLogEntryInfo) (w : World) :
    String × World :=
  let path := certPath d tenantId id w.clock
  let stored : StoredCertificate :=
    ⟨chained.certificate, userId, id, w.clock, chained.certificateHash, tsaTimestamp, rekorEntry⟩
  ("gs://" ++ d.bucketName ++ "/" ++ path, { w with bucket := w.bucket.insert path stored })

def servedEntries (d : Deployment) (w : World) : List PiiRegistryEntry :=
  if d.sourceRedaction then w.registryEntries else []

end World

def Op.run (d : Deployment) : (op : Op) → Answer → World → Option (Except String (op.Res × World))
  | .getDeletionRequest id, _, w => some (.ok (w.deletionRequests.lookup id, w))
  | .getActiveDeletionRequestForUser userId tenantId, _, w =>
    some (.ok (w.getActiveDeletionRequestForUser userId tenantId, w))
  | .createDeletionRequest userId operationId tenantId requestedBy, _, w =>
    some (.ok (w.createDeletionRequest userId operationId tenantId requestedBy))
  | .claimTransition id allowedFromStatuses newStatus, _, w =>
    some (w.claimTransition id allowedFromStatuses newStatus)
  | .updateDeletionRequestStatus id newStatus, _, w => some (w.updateDeletionRequestStatus id newStatus)
  | .updateDeletionRequestFields id fields, _, w => some (w.updateDeletionRequestFields id fields)
  | .updateJanitorWipeStatus id destination status details, _, w =>
    some (w.updateJanitorWipeStatus id destination status details)
  | .getKeyStatus userId tenantId, _, w => some (.ok (w.getKeyStatus userId tenantId, w))
  | .shredKeyForUser userId tenantId id, _, w => some (w.writeKey userId tenantId (.shred (some id)))
  | .buildPlan _ tenantId tasks, _, w =>
    some (.ok (⟨tasks, planRedaction tenantId (w.servedEntries d),
      planEncryptedCopyDeletion tenantId (w.servedEntries d)⟩, w))
  | .launchCascade _ _ tenantId _ plan, _, w =>
    let entries := w.servedEntries d
    some (.ok ((if plan.redactionResources = [] then [] else planRedaction tenantId entries,
      if plan.encryptedCopyResources = [] then [] else planEncryptedCopyDeletion tenantId entries), w))
  -- a connector that reports success reports what it found
  | .wipe _ _ _ _, .wiped found (.ok result), w =>
    if result.success = true → result.recordsFound = some found then some (.ok (result, w)) else none
  | .wipe _ _ _ _, .wiped _ (.error e), _ => some (.error e)
  | .runQuery _ _ _, .rows affected none, w => some (.ok (affected, w))
  | .runQuery _ _ _, .rows _ (some e), _ => some (.error e)
  | .recordEvent _, _, w => some (.ok ((), w))
  | .publishFailedWipe _ _ _, _, w => some (.ok ((), w))
  | .dateNow, _, w => some (.ok (w.clock, w))
  | .getGhostDataFindings _ _ _, .findings ghostDataSummary, w => some (.ok (ghostDataSummary, w))
  | .signerKeyStatus userId tenantId, _, w => some (.ok (w.getKeyStatus userId tenantId, w))
  | .signerDeletionRequest id, _, w => some (.ok (w.deletionRequests.lookup id, w))
  | .getManualRegistryEntriesForTenant tenantId, _, w =>
    some (.ok (w.declarations.filter fun entry => entry.tenantId = some tenantId, w))
  | .getKeyFingerprint, .text value, w => some (.ok (value, w))
  | .appendToChain tenantId id claims, .signed keyVersion signature, w =>
    some (.ok (w.appendToChain d tenantId id claims keyVersion signature))
  | .requestTimestamp _, .stamped info, w => some (.ok (info, w))
  | .recordTsaTimestamp hash info, _, w =>
    some (w.updateEntry hash fun entry => { entry with tsaTimestamp := some info })
  | .publishCertificateHash _ _, .published info, w => some (.ok (info, w))
  | .recordRekorEntry hash info, _, w =>
    some (w.updateEntry hash fun entry => { entry with rekorEntry := some info })
  | .uploadCertificate userId id chained tenantId tsaTimestamp rekorEntry, _, w =>
    some (.ok (w.uploadCertificate d userId id chained tenantId tsaTimestamp rekorEntry))
  | _, _, _ => none

def Op.cannotFail : Op → Bool
  | .buildPlan _ _ _ => true
  | .launchCascade _ _ _ _ _ => true
  | .dateNow => true
  | .requestTimestamp _ => true
  | .publishCertificateHash _ _ => true
  | _ => false

def Op.effective : (op : Op) → op.Res → Bool
  | .claimTransition _ _ _, .lost _ => false
  | _, _ => true

def Op.exec (d : Deployment) (op : Op) : Outcome → World → Option (Except String op.Res × World)
  | .done answer, w =>
    match op.run d answer w with
    | some (.ok (a, w')) => some (.ok a, w')
    | some (.error e) => some (.error e, w)
    | none => none
  | .failed, w => if op.cannotFail then none else some (.error unavailable, w)
  | .unconfirmed answer, w =>
    if op.cannotFail then none
    else match op.run d answer w with
      | some (.ok (a, w')) => if op.effective a then some (.error unavailable, w') else none
      | _ => none

def Op.tookEffect (op : Op) : Outcome → Except String op.Res → Bool
  | .unconfirmed _, _ => true
  | .done _, .ok a => op.effective a
  | _, _ => false

abbrev Service := Call Op Op.Res String

end ChameleonVault.Deletion
