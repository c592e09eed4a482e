import ChameleonVault.Deletion.Cascade
import ChameleonVault.Deletion.Issuance

/-! The deletion service: creating requests, advancing them, and the cascade that a request
launches and that advances it in turn. -/

namespace ChameleonVault.Deletion

open Concurrency Call
open KeyRegistry (Date Dek Deks)

def getDeletionRequest (id : String) : Service (Option DeletionRequest) := perform (Op.getDeletionRequest id)
def getActiveDeletionRequestForUser (userId tenantId : String) : Service (Option DeletionRequest) :=
  perform (Op.getActiveDeletionRequestForUser userId tenantId)
def createDeletionRequest (userId operationId tenantId : String) (requestedBy : Option String) :
    Service DeletionRequest :=
  perform (Op.createDeletionRequest userId operationId tenantId requestedBy)
def claimTransition (id : String) (allowedFromStatuses : List Status) (newStatus : Status) : Service ClaimResult :=
  perform (Op.claimTransition id allowedFromStatuses newStatus)
def updateDeletionRequestStatus (id : String) (newStatus : Status) : Service Unit :=
  perform (Op.updateDeletionRequestStatus id newStatus)
def updateDeletionRequestFields (id : String) (fields : UpdateFields) : Service Unit :=
  perform (Op.updateDeletionRequestFields id fields)
def updateJanitorWipeStatus (id destination : String) (status : WipeStatus) (details : WipeDetails) : Service Unit :=
  perform (Op.updateJanitorWipeStatus id destination status details)
def shredKeyForUser (userId tenantId id : String) : Service Unit := perform (Op.shredKeyForUser userId tenantId id)
def buildPlan (id tenantId : String) (tasks : List JanitorTask) : Service Plan :=
  perform (Op.buildPlan id tenantId tasks)
def launchCascade (id : String) (request : DeletionRequest) (tenantId operationId : String) (plan : Plan) :
    Service (List PiiRegistryEntry × List PiiRegistryEntry) :=
  perform (Op.launchCascade id request tenantId operationId plan)

namespace DeletionRequestService

structure CreatedRequest where
  request : DeletionRequest
  alreadyExisted : Bool

def requestEvent (eventType source destination operationId : String) (request : DeletionRequest)
    (context : List String) : LineageEvent where
  eventType := eventType
  userId := request.userId
  tenantId := request.tenant
  source := source
  destination := destination
  operationId := some operationId
  deletionRequestId := some request.deletionRequestId
  context := context

def createRequest (userId operationId tenantId : String) (requestedBy : Option String) :
    Service CreatedRequest := do
  let existingRequest ← getActiveDeletionRequestForUser userId tenantId
  match existingRequest with
  | some request => return ⟨request, true⟩
  | none =>
    let request ← createDeletionRequest userId operationId tenantId requestedBy
    quietly (recordEvent {
      eventType := "SHRED_REQUESTED", userId, tenantId, source := "key-vault"
      destination := "deletion-request-log", operationId := some operationId
      deletionRequestId := some operationId, context := ["SHRED_REQUESTED"] })
    return ⟨request, false⟩

def returned (request : DeletionRequest) (fields : UpdateFields) (newStatus : Status) : DeletionRequest :=
  { request.writeFields fields with status := newStatus }

def claimOrLose (id : String) (request : DeletionRequest) (newStatus : Status) :
    Service (Option DeletionRequest) := do
  let result ← claimTransition id [request.status] newStatus
  match result with
  | .claimed => return none
  | .lost current => return some current

def orRollback {α : Type} (id : String) (request : DeletionRequest) (effect : Service α) : Service α :=
  tryCatch effect fun err => do
    updateDeletionRequestStatus id request.status
    throw err

def onKeyDestroyed (id operationId : String) (request : DeletionRequest) : Service DeletionRequest := do
  let lost ← claimOrLose id request .keyDestroyed
  match lost with
  | some current => return current
  | none =>
    orRollback id request (shredKeyForUser request.userId request.tenant id)
    let now ← dateNow
    let fields : UpdateFields := { keyDestroyedAt := some now }
    quietly (recordEvent (requestEvent "KEY_SHREDDED" "key-vault" "key-registry" operationId request ["KEY_SHREDDED"]))
    updateDeletionRequestFields id fields
    return returned request fields .keyDestroyed

def onCascadePartialFailure (id operationId : String) (failedDestinations : List String)
    (request : DeletionRequest) : Service DeletionRequest := do
  let lost ← claimOrLose id request .cascadePartialFailure
  match lost with
  | some current => return current
  | none =>
    quietly (recordEvent
      (requestEvent "CASCADE_PARTIAL_FAILURE" "key-vault" "janitor-service" operationId request failedDestinations))
    updateDeletionRequestFields id {}
    return returned request {} .cascadePartialFailure

def onCertificateIssued (d : Deployment) (id operationId : String) (request : DeletionRequest) :
    Service DeletionRequest := do
  let lost ← claimOrLose id request .certificateIssued
  match lost with
  | some current => return current
  | none =>
    let gcsPath ← orRollback id request
      (CertificateService.issueAndStoreCertificate d request.userId request.deletionRequestId request.tenant)
    let now ← dateNow
    let fields : UpdateFields := { certificateIssuedAt := some now, certificateGcsPath := some gcsPath }
    quietly (recordEvent
      (requestEvent "CERTIFICATE_ISSUED" "key-vault" "certificate-service" operationId request [gcsPath]))
    updateDeletionRequestFields id fields
    return returned request fields .certificateIssued

def entering (id : String) (newStatus : Status) (handler : DeletionRequest → Service DeletionRequest) :
    Service DeletionRequest := do
  let request ← getDeletionRequest id
  match request with
  | none => throw (World.notFound id)
  | some request =>
    if isValidTransition request.status newStatus then handler request
    else throw ("Invalid state transition from " ++ request.status.name ++ " to " ++ newStatus.name)

def advanceToCertificateIssued (d : Deployment) (id operationId : String) : Service DeletionRequest :=
  entering id .certificateIssued (onCertificateIssued d id operationId)

def advanceToPartialFailure (id operationId : String) (failedDestinations : List String) :
    Service DeletionRequest :=
  entering id .cascadePartialFailure (onCascadePartialFailure id operationId failedDestinations)

def onCascadeComplete (d : Deployment) (id operationId : String) : Service DeletionRequest := do
  updateDeletionRequestStatus id .cascadeComplete
  advanceToCertificateIssued d id operationId

/-- Reached from an empty plan only, whatever the status. -/
def shortcutToCascadeComplete (d : Deployment) (id operationId : String) : Service DeletionRequest := do
  updateDeletionRequestStatus id .cascadeComplete
  advanceToCertificateIssued d id operationId

inductive CascadeTrigger where
  | shortcutToComplete
  | planFailed (error : String)
  | ready (plan : Plan)

def prepareCascadeTrigger (id : String) (request : DeletionRequest) : Service CascadeTrigger :=
  tryCatch (do
    let tasks ← JanitorService.createCleanupPlan request.userId request.tenant
    let plan ← buildPlan id request.tenant tasks
    if plan.isEmpty then return .shortcutToComplete else return .ready plan)
  fun err => return .planFailed err

def startCascade (id operationId eventType : String) (request : DeletionRequest) (newStatus : Status)
    (plan : Plan) : Service DeletionRequest := do
  let lost ← claimOrLose id request newStatus
  match lost with
  | some current => return current
  | none =>
    let now ← dateNow
    let fields : UpdateFields := { cascadeInitiatedAt := some now }
    quietly (recordEvent (requestEvent eventType "key-vault" "janitor-service" operationId request
      (plan.tasks.map JanitorTask.destination)))
    updateDeletionRequestFields id fields
    let _ ← launchCascade id request request.tenant operationId plan
    return returned request fields newStatus

def onCascadePending (d : Deployment) (id operationId : String) (request : DeletionRequest) :
    Service DeletionRequest := do
  let trigger ← prepareCascadeTrigger id request
  match trigger with
  | .shortcutToComplete => shortcutToCascadeComplete d id operationId
  | .planFailed error =>
    advanceToPartialFailure id operationId ["internal-error (plan creation): " ++ error]
  | .ready plan => startCascade id operationId "JANITOR_TRIGGERED" request .cascadePending plan

def onCascadeInProgress (d : Deployment) (id operationId : String) (request : DeletionRequest) :
    Service DeletionRequest := do
  let trigger ← prepareCascadeTrigger id request
  match trigger with
  | .shortcutToComplete => shortcutToCascadeComplete d id operationId
  | .planFailed _ => return request
  | .ready plan => startCascade id operationId "CASCADE_RETRY_TRIGGERED" request .cascadeInProgress plan

def advanceRequest (d : Deployment) (id : String) (newStatus : Status) (operationId : String)
    (failedDestinations : List String) : Service DeletionRequest :=
  entering id newStatus fun request =>
    match newStatus with
    | .keyDestroyed => onKeyDestroyed id operationId request
    | .cascadePending => onCascadePending d id operationId request
    | .cascadeInProgress => onCascadeInProgress d id operationId request
    | .cascadeComplete => onCascadeComplete d id operationId
    | .cascadePartialFailure => onCascadePartialFailure id operationId failedDestinations request
    | .certificateIssued => onCertificateIssued d id operationId request
    -- no handler: the write at the end of the source's function
    | .shredRequested => do
      updateDeletionRequestStatus id .shredRequested
      return returned request {} .shredRequested

-- The advances that the source makes from within an advance are written out above.
example (d : Deployment) (id operationId : String) (failed : List String) :
    advanceRequest d id .certificateIssued operationId failed = advanceToCertificateIssued d id operationId := rfl

example (d : Deployment) (id operationId : String) (failed : List String) :
    advanceRequest d id .cascadePartialFailure operationId failed = advanceToPartialFailure id operationId failed := rfl

structure CascadeResults where
  janitorResults : List JanitorTask
  redactionResults : List SourceRedactionResult
  encryptedCopyResults : List SourceRedactionResult

def CascadeResults.failedDestinations (results : CascadeResults) : List String :=
  (results.janitorResults.filter fun r => r.status ≠ .complete).map JanitorTask.destination
    ++ (results.redactionResults.filter fun r => !r.success).map (fun r => r.resourceId ++ redactInPlaceSuffix)
    ++ (results.encryptedCopyResults.filter fun r => !r.success).map (fun r => r.resourceId ++ encryptedCopySuffix)

def recordWipe (id : String) (result : JanitorTask) : Service Unit :=
  quietly (updateJanitorWipeStatus id result.destination
    (if result.status = .complete then .succeeded else .failed)
    { attempts := some result.attempts, recordsFound := result.recordsFound })

def recordStatement (id suffix : String) (result : SourceRedactionResult) : Service Unit :=
  quietly (updateJanitorWipeStatus id (result.resourceId ++ suffix)
    (if result.success then .succeeded else .failed)
    { rowsAffected := result.rowsAffected, error := result.error })

def finishCascade (d : Deployment) (id operationId : String) (results : CascadeResults) : Service Unit := do
  let _ ← each (recordWipe id) results.janitorResults
  let _ ← each (recordStatement id redactInPlaceSuffix) results.redactionResults
  let _ ← each (recordStatement id encryptedCopySuffix) results.encryptedCopyResults
  let _ ← advanceRequest d id
    (if results.failedDestinations = [] then .cascadeComplete else .cascadePartialFailure)
    operationId results.failedDestinations
  return ()

def recoverCascade (d : Deployment) (id operationId err : String) : Service Unit :=
  quietly do
    let _ ← advanceRequest d id .cascadePartialFailure operationId ["internal-error: " ++ err]
    return ()

abbrev Run := Prog Op (fun op => Except String op.Res)

def ignore {α : Type} (x : Service α) : Run Unit := x.run.bind fun _ => .done ()

def settleCascade (d : Deployment) (id operationId : String) (results : CascadeResults) : Run Unit :=
  ignore (tryCatch (finishCascade d id operationId results) (recoverCascade d id operationId))

def cascade (d : Deployment) (id : String) (request : DeletionRequest) (tenantId operationId : String)
    (redactionResources encryptedCopyResources : List PiiRegistryEntry) : Run Unit :=
  Prog.awaitAll
    (fun janitorResults (r : List SourceRedactionResult × List SourceRedactionResult) =>
      settleCascade d id operationId ⟨janitorResults, r.1, r.2⟩)
    (fun err => ignore (recoverCascade d id operationId err))
    (JanitorService.processCleanup id request.userId tenantId).run
    (Prog.awaitAll (fun r c => .done (.ok (r, c))) (fun err => .done (.error err))
      (SourceRedactionService.redactUserInDeclaredSources id request.userId tenantId redactionResources).run
      (SourceRedactionService.deleteUserFromEncryptedCopies id request.userId tenantId encryptedCopyResources).run)

end DeletionRequestService

open DeletionRequestService

inductive Job where
  | createRequest (userId operationId tenantId : String) (requestedBy : Option String)
  | advanceRequest (id : String) (newStatus : Status) (operationId : String)
  | cascade (id : String) (request : DeletionRequest) (tenantId operationId : String)
      (redactionResources encryptedCopyResources : List PiiRegistryEntry)

def Job.body (d : Deployment) : Job → Run Unit
  | .createRequest userId operationId tenantId requestedBy =>
    ignore (DeletionRequestService.createRequest userId operationId tenantId requestedBy)
  | .advanceRequest id newStatus operationId =>
    ignore (DeletionRequestService.advanceRequest d id newStatus operationId [])
  | .cascade id request tenantId operationId redactionResources encryptedCopyResources =>
    DeletionRequestService.cascade d id request tenantId operationId redactionResources encryptedCopyResources

def Job.isClient : Job → Bool
  | .cascade _ _ _ _ _ _ => false
  | _ => true

def launched : (op : Op) → Except String op.Res → List Job
  | .launchCascade id request tenantId operationId _, .ok (redactionResources, encryptedCopyResources) =>
    [.cascade id request tenantId operationId redactionResources encryptedCopyResources]
  | _, _ => []

inductive Env where
  | tick (ms : ℕ)
  /-- The instances do not share a clock. -/
  | setClock (now : Date)
  | setKey (tenantId userId : String) (dek : Dek)
  | rotateKey (tenantId userId : String) (deks : Deks) (activeDekId : String)
  | addDestination (tenantId userId destination : String)
  | serveEntries (entries : List PiiRegistryEntry)
  | declareEntries (entries : List PiiRegistryEntry)

def Env.step : Env → World → Option World
  | .tick ms, w => some { w with clock := w.clock + ms }
  | .setClock now, w => some { w with clock := now }
  | .setKey tenantId userId dek, w => ((w.writeKey userId tenantId (.set userId dek)).toOption).map Prod.snd
  | .rotateKey tenantId userId deks activeDekId, w =>
    ((w.writeKey userId tenantId (.rotate deks activeDekId)).toOption).map Prod.snd
  | .addDestination tenantId userId destination, w =>
    ((w.writeKey userId tenantId (.addDestination destination)).toOption).map Prod.snd
  | .serveEntries entries, w => some { w with registryEntries := entries }
  | .declareEntries entries, w => some { w with declarations := entries }

abbrev vault (d : Deployment) : Interleaving where
  State := World
  Op := Op
  Ret := fun op => Except String op.Res
  Choice := Outcome
  Env := Env
  Job := Job
  exec := Op.exec d
  env := Env.step
  body := Job.body d
  forks := launched
  client := Job.isClient

end ChameleonVault.Deletion
