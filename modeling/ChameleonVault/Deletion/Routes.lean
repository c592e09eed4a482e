import ChameleonVault.Concurrency.Sequence
import ChameleonVault.Deletion.Ownership
import ChameleonVault.KeyRegistry.Collection

/-! The routes that create, read and advance deletion requests, with the schemas of their input. -/

namespace ChameleonVault.Deletion

open Concurrency Call DeletionRequestService
open KeyRegistry (truthy userIdSchema)

section Input

structure Headers where
  tenantId : Option String := none
  correlationId : Option String := none
  deriving DecidableEq

def Headers.tenant (headers : Headers) : String := (truthy headers.tenantId).getD defaultTenant

/-- The hook before every handler takes the header, or else a new id. -/
def Headers.correlation (headers : Headers) (randomUUID : String) : String :=
  (truthy headers.correlationId).getD randomUUID

structure DeletionBody where
  userId : Option String := none
  userIdAlias : Option String := none
  operationId : Option String := none
  operationIdAlias : Option String := none

namespace DeletionBody

def user (body : DeletionBody) : String := ((truthy body.userId).or body.userIdAlias).getD ""

def operation (body : DeletionBody) : Option String := (truthy body.operationId).or (truthy body.operationIdAlias)

def accepted (operationSchema : String → Bool) (body : DeletionBody) : Bool :=
  body.userId.all userIdSchema && body.userIdAlias.all userIdSchema && body.operationId.all operationSchema
    && body.operationIdAlias.all operationSchema && (body.userId.isSome || body.userIdAlias.isSome)

end DeletionBody

/-- Joi takes no empty string for a string. -/
def joiString (value : String) : Bool := value ≠ ""

def keyShredSchema (body : DeletionBody) : Bool := body.accepted joiString

def createDeletionRequestSchema (uuid : String → Bool) (body : DeletionBody) : Bool :=
  body.accepted uuid && (body.operationId.isSome || body.operationIdAlias.isSome)

def getDeletionRequestSchema (uuid : String → Bool) (deletionRequestId : String) : Bool := uuid deletionRequestId

structure AdvanceBody where
  newStatus : Option Status := none
  newStatusAlias : Option Status := none
  operationId : Option String := none
  operationIdAlias : Option String := none

def AdvanceBody.operation (body : AdvanceBody) : String :=
  ((truthy body.operationId).or body.operationIdAlias).getD ""

def advanceDeletionRequestSchema (uuid : String → Bool) (body : AdvanceBody) : Bool :=
  body.operationId.all uuid && body.operationIdAlias.all uuid && (body.newStatus.isSome || body.newStatusAlias.isSome)
    && (body.operationId.isSome || body.operationIdAlias.isSome)

end Input

section Replies

inductive Reply (α : Type) where
  | sent (statusCode : ℕ) (body : α)
  | failed (statusCode : ℕ) (error : String) (message : Option String := none)
  deriving DecidableEq

/-- What the shred route tells its caller. -/
structure ShredReport where
  status : Status
  userId : String
  deletionRequestId : Option String
  message : String
  deriving DecidableEq

def underway (userId : String) (request : DeletionRequest) : ShredReport where
  status := request.status
  userId := userId
  deletionRequestId := some request.deletionRequestId
  message := "Deletion process is already in progress or completed."

def alreadyShredded (userId : String) : ShredReport where
  status := .certificateIssued
  userId := userId
  deletionRequestId := none
  message := "Key successfully shredded (already shredded and certificate issued)"

def initiated (userId : String) (request : DeletionRequest) : ShredReport where
  status := request.status
  userId := userId
  deletionRequestId := some request.deletionRequestId
  message := "Key destroyed. All encrypted data is now mathematically unrecoverable."

end Replies

section Routes

def answered {α : Type} (error : String) (handler : Service (Reply α)) : Service (Reply α) :=
  tryCatch handler fun err => return .failed 500 error (some err)

def validationFailed : String := "Validation failed"

/-- What the validation throws is no `Error`, and is turned into a string as any object is. -/
def thrownByValidation : String := "[object Object]"

def shredAndCascade (d : Deployment) (userId operationId : String) (request : DeletionRequest) :
    Service (Reply ShredReport) := do
  let request ← advanceRequest d request.deletionRequestId .keyDestroyed operationId []
  let request ← advanceRequest d request.deletionRequestId .cascadePending operationId []
  return .sent 200 (initiated userId request)

def startDeletion (d : Deployment) (userId operationId tenantId : String) : Service (Reply ShredReport) := do
  let created ← createRequest userId operationId tenantId none
  if created.alreadyExisted then return .sent 200 (underway userId created.request)
  else shredAndCascade d userId operationId created.request

def shredRequest (d : Deployment) (userId operationId tenantId : String) : Service (Reply ShredReport) := do
  let existingDeletionRequest ← getDeletionRequest operationId
  match existingDeletionRequest with
  | some request => return .sent 200 (underway userId request)
  | none =>
    let keyEntry ← getKeyStatus userId tenantId
    match keyEntry with
    | none => return .failed 404 "User key not found"
    | some keyEntry =>
      if keyEntry.status = .shredded then return .sent 200 (alreadyShredded userId)
      else startDeletion d userId operationId tenantId

/-- `DELETE /key/shred` -/
def keyShred (d : Deployment) (headers : Headers) (randomUUID : String) (body : DeletionBody) :
    Service (Reply ShredReport) :=
  if keyShredSchema body then
    answered "Failed to shred key"
      (shredRequest d body.user (body.operation.getD (headers.correlation randomUUID)) headers.tenant)
  else return .failed 400 validationFailed

/-- `POST /deletion-requests` -/
def postDeletionRequest (uuid : String → Bool) (headers : Headers) (analystEmail : Option String)
    (body : DeletionBody) : Service (Reply CreatedRequest) :=
  answered "Failed to create deletion request" <|
    if createDeletionRequestSchema uuid body then do
      let created ← createRequest body.user (body.operation.getD "") headers.tenant analystEmail
      return .sent (if created.alreadyExisted then 200 else 201) created
    else throw thrownByValidation

/-- A request of another tenant is not found. -/
def visible (tenantId : String) (request : Option DeletionRequest) : Option DeletionRequest :=
  request.filter fun r => r.tenantId.getD defaultTenant = tenantId

/-- `GET /deletion-requests/:deletionRequestId` -/
def fetchDeletionRequest (uuid : String → Bool) (headers : Headers) (deletionRequestId : String) :
    Service (Reply DeletionRequest) :=
  answered "Failed to get deletion request" <|
    if getDeletionRequestSchema uuid deletionRequestId then do
      let request ← getDeletionRequest deletionRequestId
      match visible headers.tenant request with
      | none => return .failed 404 "Deletion request not found"
      | some request => return .sent 200 request
    else throw thrownByValidation

/-- `POST /deletion-requests/:deletionRequestId/advance` -/
def advanceDeletionRequest (d : Deployment) (uuid : String → Bool) (headers : Headers) (deletionRequestId : String)
    (body : AdvanceBody) : Service (Reply DeletionRequest) :=
  answered "Failed to advance deletion request" <|
    if getDeletionRequestSchema uuid deletionRequestId ∧ advanceDeletionRequestSchema uuid body then do
      let existing ← getDeletionRequest deletionRequestId
      match visible headers.tenant existing, body.newStatus.or body.newStatusAlias with
      | none, _ => return .failed 404 "Deletion request not found"
      | some _, none => throw thrownByValidation
      | some _, some newStatus =>
        let updatedRequest ← advanceRequest d deletionRequestId newStatus body.operation []
        return .sent 200 updatedRequest
    else throw thrownByValidation

end Routes

end ChameleonVault.Deletion
