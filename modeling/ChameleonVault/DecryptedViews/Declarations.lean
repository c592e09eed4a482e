import ChameleonVault.PiiRegistry.Executors

/-! Declarations of decrypted views: what is checked of them, their names, and the statement behind a view. -/

namespace ChameleonVault.DecryptedViews

open KeyRegistry (Date)
open Deletion (TableRef isSafeIdentifier)
open PiiRegistry (buildPiiVaultPivotColumns escapeSqlStringLiteral joinLines quoted trim)

structure DeclareViewInput where
  tenantId : String
  viewName : String
  declaredFields : List String
  businessJustification : String
  createdBy : String
  consumerServiceAccount : String

inductive ViewStatus where
  | active | revoked
  deriving DecidableEq

structure DecryptedViewDeclaration where
  tenantId : String
  viewName : String
  sourceResourceId : String
  declaredFields : List String
  businessJustification : String
  createdBy : String
  bigqueryDataset : String
  bigqueryViewName : String
  status : ViewStatus
  createdAt : Date
  revokedAt : Option Date := none
  revokedBy : Option String := none
  deriving DecidableEq

structure DecryptedViewService where
  decryptedViewsDataset : String
  batchDecryptFunctionRef : String
  piiVault : TableRef

def docId (tenantId viewName : String) : String := tenantId ++ ":" ++ viewName

def DeclareViewInput.viewId (input : DeclareViewInput) : String := input.tenantId ++ "_" ++ input.viewName

/-- What is checked before anything is asked of BigQuery. -/
def checkInput (input : DeclareViewInput) : Except String Unit :=
  if isSafeIdentifier input.viewName = false then
    .error "View name must be a valid identifier: letters, numbers, underscores, not starting with a number."
  else if trim input.businessJustification = "" then .error "businessJustification is required."
  else if input.declaredFields = [] then .error "At least one declared field is required."
  else .ok ()

def checkFields (available declaredFields : List String) : Except String Unit :=
  match declaredFields.find? fun fieldName => decide (fieldName ∉ available) with
  | some fieldName =>
    .error ("Field \"" ++ fieldName ++ "\" has no synced rows in pii_vault for this tenant -- check the field name, "
      ++ "or that it has actually been synced yet.")
  | none => .ok ()

namespace DecryptedViewService

variable (service : DecryptedViewService)

def piiVaultResourceId : String :=
  "bigquery:" ++ service.piiVault.projectId ++ "." ++ service.piiVault.datasetId ++ "." ++ service.piiVault.tableId

def buildViewSql (input : DeclareViewInput) : String :=
  joinLines [
    "SELECT",
    "  user_id,",
    "  tenant_id,",
    "  " ++ ",\n  ".intercalate (buildPiiVaultPivotColumns input.declaredFields service.batchDecryptFunctionRef),
    "FROM " ++ quoted service.piiVault "",
    "WHERE tenant_id = '" ++ escapeSqlStringLiteral input.tenantId ++ "'",
    "GROUP BY user_id, tenant_id"]

def declaration (input : DeclareViewInput) (createdAt : Date) : DecryptedViewDeclaration where
  tenantId := input.tenantId
  viewName := input.viewName
  sourceResourceId := service.piiVaultResourceId
  declaredFields := input.declaredFields
  businessJustification := input.businessJustification
  createdBy := input.createdBy
  bigqueryDataset := service.decryptedViewsDataset
  bigqueryViewName := input.viewId
  status := .active
  createdAt := createdAt

end DecryptedViewService

section Checks

variable {input : DeclareViewInput} {available declaredFields : List String}

lemma checkInput_ok_iff : checkInput input = .ok () ↔ isSafeIdentifier input.viewName = true ∧
    trim input.businessJustification ≠ "" ∧ input.declaredFields ≠ [] := by
  rw [checkInput]
  split_ifs <;> simp_all

end Checks

section Examples

def viewService : DecryptedViewService where
  decryptedViewsDataset := "views"
  batchDecryptFunctionRef := "p.views.decrypt"
  piiVault := ⟨"p", "d", "pii_vault"⟩

def viewInput (tenantId : String) : DeclareViewInput where
  tenantId := tenantId
  viewName := "contacts"
  declaredFields := ["email"]
  businessJustification := "support"
  createdBy := "ada"
  consumerServiceAccount := "reader@p.iam.gserviceaccount.com"

end Examples

end ChameleonVault.DecryptedViews
