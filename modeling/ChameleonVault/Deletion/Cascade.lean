import ChameleonVault.Deletion.Operations

/-! The work of a cascade: the janitor's wipes at the SaaS destinations, and the statements on
the declared resources. -/

namespace ChameleonVault.Deletion

open Concurrency Call
open KeyRegistry (KeyStatus truthy)

section Janitor

/-- What may be asked of the value that a promise is rejected with: what it reads as, by its message
where it is an `Error` and as a string otherwise, and its message. Both may throw. -/
class Thrown (ε : Type) where
  text : ε → Except ε String
  message : ε → Except ε String

/-- In the runs of the deletion service a rejection stands as what it reads as. -/
instance : Thrown String := ⟨.ok, .ok⟩

variable {ε : Type}

def getKeyStatus (userId tenantId : String) : Call Op Op.Res ε (Option KeyStatus) := perform (Op.getKeyStatus userId tenantId)
def recordEvent (event : LineageEvent) : Call Op Op.Res ε Unit := perform (Op.recordEvent event)
def wipe (id destination userId tenantId : String) : Call Op Op.Res ε WipeResult :=
  perform (Op.wipe id destination userId tenantId)
def runQuery (id destination : String) (query : Query) : Service ℕ := perform (Op.runQuery id destination query)
def publishFailedWipe (userId destination error : String) : Call Op Op.Res ε Unit :=
  perform (Op.publishFailedWipe userId destination error)

namespace JanitorService

def maxRetries : ℕ := 3

def createCleanupPlan (userId tenantId : String) : Call Op Op.Res ε (List JanitorTask) := do
  let keyStatus ← getKeyStatus userId tenantId
  return cleanupTasks ((keyStatus.bind (·.destinations)).getD [])

structure WipeOutcome where
  success : Bool
  attempts : ℕ
  recordsFound : Option ℕ := none
  lastError : String := ""

def wipeEvent (eventType userId tenantId destination : String) (context : List String) : LineageEvent where
  eventType := eventType
  userId := userId
  tenantId := tenantId
  source := "janitor-service"
  destination := destination
  context := destination :: context

variable [Thrown ε]

def attempt (id destination userId tenantId : String) : Call Op Op.Res ε WipeResult :=
  tryCatch (wipe id destination userId tenantId) fun err => do
    let error ← orThrow (Thrown.text err)
    return { success := false, error := some error }

def wipeAttempts (id userId tenantId destination : String) : ℕ → ℕ → String → Call Op Op.Res ε WipeOutcome
  | 0, attempts, lastError => return { success := false, attempts, lastError }
  | left + 1, attempts, _ => do
    quietly (recordEvent (wipeEvent "SaaS_WIPE_STARTED" userId tenantId destination [toString (attempts + 1)]))
    let response ← attempt id destination userId tenantId
    if response.success then
      return { success := true, attempts := attempts + 1, recordsFound := response.recordsFound }
    else
      let lastError := (truthy response.error).getD "Unknown error"
      let isRetryable := response.retryable.getD true
      if isRetryable then wipeAttempts id userId tenantId destination left (attempts + 1) lastError
      else return { success := false, attempts := attempts + 1, lastError }

/-- What is logged of a rejection is its message, and reading that may throw in turn. -/
def publishToDeadLetters (userId destination error : String) : Call Op Op.Res ε Unit :=
  tryCatch (publishFailedWipe userId destination error) fun dlqError => do
    let _ ← orThrow (Thrown.message dlqError)
    return ()

def cleanup (id userId tenantId : String) (task : JanitorTask) : Call Op Op.Res ε JanitorTask := do
  if hasConnector task.destination then
    let outcome ← wipeAttempts id userId tenantId task.destination maxRetries 0 ""
    quietly (recordEvent (wipeEvent "SaaS_WIPE_COMPLETED" userId tenantId task.destination
      [if outcome.success then "COMPLETE" else "FAILED"]))
    if outcome.success then
      return { task with status := .complete, attempts := outcome.attempts, recordsFound := outcome.recordsFound }
    else
      publishToDeadLetters userId task.destination outcome.lastError
      return { task with status := .failed, attempts := outcome.attempts, recordsFound := outcome.recordsFound }
  else return { task with status := .failed }

def processCleanup (id userId tenantId : String) : Call Op Op.Res ε (List JanitorTask) := do
  let tasks ← createCleanupPlan userId tenantId
  each (cleanup id userId tenantId) tasks

end JanitorService

end Janitor

namespace SourceRedactionService

def runStatement (id suffix : String) (query : PiiRegistryEntry → Except String Query)
    (resource : PiiRegistryEntry) : Service ℕ :=
  match query resource with
  | .ok q => runQuery id (resource.resourceId ++ suffix) q
  | .error e => throw e

def redactOne (id userId tenantId : String) : PiiRegistryEntry → Service ℕ :=
  runStatement id redactInPlaceSuffix (redactionQuery · userId tenantId)

def deleteFromEncryptedCopyOne (id userId tenantId : String) : PiiRegistryEntry → Service ℕ :=
  runStatement id encryptedCopySuffix (encryptedCopyQuery · userId tenantId)

def resultOf (statement : PiiRegistryEntry → Service ℕ) (resource : PiiRegistryEntry) :
    Service SourceRedactionResult :=
  tryCatch (do
    let rowsAffected ← statement resource
    return { resourceId := resource.resourceId, success := true, rowsAffected := some rowsAffected })
  fun err => return { resourceId := resource.resourceId, success := false, error := some err }

def redactUserInDeclaredSources (id userId tenantId : String) (resources : List PiiRegistryEntry) :
    Service (List SourceRedactionResult) :=
  each (resultOf (redactOne id userId tenantId)) resources

def deleteUserFromEncryptedCopies (id userId tenantId : String) (resources : List PiiRegistryEntry) :
    Service (List SourceRedactionResult) :=
  each (resultOf (deleteFromEncryptedCopyOne id userId tenantId)) resources

end SourceRedactionService

end ChameleonVault.Deletion
