import ChameleonVault.Collections.DocumentPaths
import ChameleonVault.Collections.OrderedMap
import ChameleonVault.Deletion.Sources
import ChameleonVault.Encoding.Percent
import Mathlib.Data.List.AList

/-! Entries of the PII registry, the keys under which they are served and stored, and what a
write leaves in the stored document. -/

namespace ChameleonVault.PiiRegistry

open Collections Encoding
open KeyRegistry (truthy)
open Deletion (PiiSystem SourceRedactionStrategy manualOwnerConnector)

inductive PiiClassification where
  | directIdentifier | quasiIdentifier | contact | sensitive | behavioral | systemIdentifier
  deriving DecidableEq

inductive PiiHandling where
  | encrypt | tokenize | redact | hashSurrogate | allowAggregateOnly | manualReview
  deriving DecidableEq

inductive DeletionStrategy where
  | cryptoShred | deleteRows | redactFields | externalWipe | manualReview
  deriving DecidableEq

inductive RegistryConfidence where
  | declared | inferredHigh | inferredMedium | inferredLow
  deriving DecidableEq

inductive PiiResourceLayer where
  | raw | staging | intermediate | mart | saas
  -- what rows of a warehouse without a layer are given
  | unknown
  deriving DecidableEq

inductive PiiResourceVisibility where
  | customerFacing | internal
  deriving DecidableEq

inductive RegistryEntryStatus where
  | approved | pendingReview | deprecated | disabled
  deriving DecidableEq

inductive ScanMode where
  | full | sampled | disabled
  deriving DecidableEq

structure PiiFieldPolicy where
  name : String
  classification : PiiClassification
  handling : PiiHandling
  requiredInMart : Bool
  evidence : Option (List String) := none
  confidence : Option RegistryConfidence := none
  surrogateId : Option String := none
  deriving DecidableEq

structure GhostDataScanPolicy where
  enabled : Bool
  scanMode : ScanMode
  patterns : List String
  deriving DecidableEq

structure PiiRegistryEntry where
  registryVersion : String
  resourceId : String
  system : PiiSystem
  resourceLayer : Option PiiResourceLayer := none
  visibility : Option PiiResourceVisibility := none
  tenantIdColumn : Option String := none
  userIdColumn : Option String := none
  pubsubAllowedCallerServiceAccount : Option String := none
  userIdFieldPath : Option String := none
  updatedAtColumn : Option String := none
  lastSyncedAt : Option String := none
  lastSyncAttemptAt : Option String := none
  piiFields : List PiiFieldPolicy
  ownerConnector : String
  lineageDestination : String
  deletionStrategy : DeletionStrategy
  sourceRedactionStrategy : Option SourceRedactionStrategy := none
  sourceRedactionStrategies : Option (List SourceRedactionStrategy) := none
  ghostDataScan : GhostDataScanPolicy
  handlingPolicy : String
  evidencePointers : List String
  notes : Option String := none
  tenantId : Option String := none
  status : Option RegistryEntryStatus := none
  createdAt : Option String := none
  updatedAt : Option String := none
  declaredBy : Option String := none
  lastModifiedBy : Option String := none
  deriving DecidableEq

namespace PiiRegistryEntry

def resource (entry : PiiRegistryEntry) : Deletion.PiiRegistryEntry where
  resourceId := entry.resourceId
  system := entry.system
  tenantId := entry.tenantId
  ownerConnector := entry.ownerConnector
  tenantIdColumn := entry.tenantIdColumn
  userIdColumn := entry.userIdColumn
  piiFields := entry.piiFields.map PiiFieldPolicy.name
  sourceRedactionStrategy := entry.sourceRedactionStrategy
  sourceRedactionStrategies := entry.sourceRedactionStrategies

def isManual (entry : PiiRegistryEntry) : Bool := entry.ownerConnector = manualOwnerConnector

end PiiRegistryEntry

def globalScope : String := "*"

def keyOf (tenantId : Option String) (resourceId : String) : String :=
  tenantId.getD globalScope ++ "::" ++ resourceId

def PiiRegistryEntry.key (entry : PiiRegistryEntry) : String := keyOf entry.tenantId entry.resourceId

def docId (tenantId resourceId : String) : String := tenantId ++ ":" ++ encodeURIComponent resourceId

lemma docId_inj {tenantId resourceId tenantId' resourceId' : String}
    (h : docId tenantId resourceId = docId tenantId' resourceId') :
    tenantId = tenantId' ∧ resourceId = resourceId' := by
  have hl : tenantId.toList ++ ':' :: (encodeURIComponent resourceId).toList =
      tenantId'.toList ++ ':' :: (encodeURIComponent resourceId').toList := by
    simpa [docId, String.toList_append] using congrArg String.toList h
  obtain ⟨ht, hr⟩ := append_separator_inj (colon_not_mem_encodeURIComponent _) (colon_not_mem_encodeURIComponent _) hl
  exact ⟨String.toList_inj.mp ht, encodeURIComponent_inj (String.toList_inj.mp hr)⟩

section Documents

/-- A set with merge over the stored document: an undefined field is not written. -/
def writeDoc (stored : Option PiiRegistryEntry) (entry : PiiRegistryEntry) : PiiRegistryEntry :=
  let merged {α : Type} (field : PiiRegistryEntry → Option α) : Option α :=
    (field entry).or (stored.bind field)
  { entry with
    resourceLayer := merged (·.resourceLayer)
    visibility := merged (·.visibility)
    tenantIdColumn := merged (·.tenantIdColumn)
    userIdColumn := merged (·.userIdColumn)
    pubsubAllowedCallerServiceAccount := merged (·.pubsubAllowedCallerServiceAccount)
    userIdFieldPath := merged (·.userIdFieldPath)
    -- these three are deleted from the document when the entry has them empty
    updatedAtColumn := truthy entry.updatedAtColumn
    lastSyncedAt := if (truthy entry.updatedAtColumn).isSome then merged (·.lastSyncedAt) else none
    lastModifiedBy := truthy entry.lastModifiedBy
    lastSyncAttemptAt := merged (·.lastSyncAttemptAt)
    sourceRedactionStrategy := merged (·.sourceRedactionStrategy)
    sourceRedactionStrategies := merged (·.sourceRedactionStrategies)
    notes := merged (·.notes)
    tenantId := merged (·.tenantId)
    status := merged (·.status)
    createdAt := merged (·.createdAt)
    updatedAt := merged (·.updatedAt)
    declaredBy := merged (·.declaredBy) }

end Documents

end ChameleonVault.PiiRegistry
