import ChameleonVault.Deletion.Sources
import ChameleonVault.KeyRegistry.Collection
import Mathlib.Algebra.GroupWithZero.Nat

/-! The events that report where a user's data went, and the plans made of them. Both go
through the key document of the user. -/

namespace ChameleonVault.Lineage

open Concurrency KeyRegistry
open Deletion (JanitorTask cleanupTasks)

inductive DataClassification where
  | pii | encryptedOnly | unstructuredCache | ghostData | auditTrail | metadata | unknown
  deriving DecidableEq

/-- The schema strips every other field, a tenant id among them. -/
structure LineageEvent where
  userId : Option String := none
  user_id : Option String := none
  source : String
  destination : String
  dataClassification : Option DataClassification := none
  data_classification : Option DataClassification := none
  deriving DecidableEq

/-- Joi counts the code units of a string. -/
def codeUnits (name : String) : ℕ := (name.toList.map fun c => if c.toNat < 0x10000 then 1 else 2).sum

def isSystemName (name : String) : Bool := decide (1 ≤ codeUnits name ∧ codeUnits name ≤ 128)

def lineageEventSchema (event : LineageEvent) : Bool :=
  event.userId.all userIdSchema && event.user_id.all userIdSchema && (event.userId.isSome || event.user_id.isSome)
    && isSystemName event.source && isSystemName event.destination

def LineageEvent.subject (event : LineageEvent) : Option String :=
  (truthy event.userId).orElse fun _ => event.user_id

def LineageEvent.isResourceLevelGhostFinding (event : LineageEvent) : Bool :=
  (event.dataClassification.orElse fun _ => event.data_classification) == some .ghostData
    && event.subject == some "UNKNOWN"

def requestTenant (header : Option String) : String := (truthy header).getD "default-tenant"

def createCleanupPlan (now : Date) : KeyCall (List JanitorTask) := do
  let doc ← get
  let keyStatus := getKeyStatus now doc
  return cleanupTasks ((keyStatus.bind (·.destinations)).getD [])

/-- What is answered to a caller is logged like an operation. -/
inductive LineageOp where
  | key (op : KeyOp)
  | recordEvent (tenantId : String) (event : LineageEvent)
  | recorded (event : LineageEvent)
  | planned (tasks : List JanitorTask)

def LineageOp.Res : LineageOp → Type
  | .key op => op.Res
  | _ => Unit

def LineageOp.exec : (op : LineageOp) → Outcome → DocState → Option (Except String op.Res × DocState)
  | .key op, choice, s => op.exec choice s
  | .recordEvent _ _, .done, s => some (.ok (), s)
  | .recordEvent _ _, .fail _, s => some (.error unavailable, s)
  | .recorded _, .done, s => some (.ok (), s)
  | .planned _, .done, s => some (.ok (), s)
  | _, _, _ => none

abbrev LineageCall := Call LineageOp LineageOp.Res String

def ofKey {α : Type} (x : KeyCall α) : LineageCall α :=
  ExceptT.mk (x.run.rename LineageOp.key fun _ reply => reply)

def postLineageEvents (tenantId : String) (event : LineageEvent) : LineageCall Unit := do
  if !event.isResourceLevelGhostFinding then
    ofKey (FirestoreRegistry.addDestinationToUser event.destination)
  perform (LineageOp.recordEvent tenantId event)
  perform (LineageOp.recorded event)

def reportCleanupPlan (now : Date) : LineageCall Unit := do
  let tasks ← ofKey (createCleanupPlan now)
  perform (LineageOp.planned tasks)

inductive LineageJob where
  | lineageEvent (tenantHeader : Option String) (event : LineageEvent)
  | key (job : KeyJob)
  | createCleanupPlan (now : Date)

def LineageJob.body (owner : Owner) : LineageJob → Prog LineageOp (fun op => Except String op.Res) Unit
  | .lineageEvent _ event => (postLineageEvents owner.tenantId event).run.bind fun _ => .done ()
  | .key job => (job.body owner.userId).rename LineageOp.key fun _ reply => reply
  | .createCleanupPlan now => (reportCleanupPlan now).run.bind fun _ => .done ()

def LineageJob.concerns (owner : Owner) : LineageJob → Bool
  | .lineageEvent tenantHeader event =>
    lineageEventSchema event && event.subject == some owner.userId && requestTenant tenantHeader == owner.tenantId
  | .key _ => true
  | .createCleanupPlan _ => true

/-- The requests about one user of one tenant. -/
abbrev hotPath (owner : Owner) : Interleaving where
  State := DocState
  Op := LineageOp
  Ret := fun op => Except String op.Res
  Choice := Outcome
  Env := ℕ
  Job := LineageJob
  exec := LineageOp.exec
  env n s := some { s with clock := s.clock + n }
  body := LineageJob.body owner
  forks _ _ := []
  client := LineageJob.concerns owner

end ChameleonVault.Lineage
