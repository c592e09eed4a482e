import ChameleonVault.Deletion.Requests

/-! Where a user's data may live besides the vault: SaaS destinations with a connector, and
manually declared resources with a source-redaction strategy. -/

namespace ChameleonVault.Deletion

open KeyRegistry (truthy)

def registeredConnectors : List String := ["hubspot", "salesforce"]

def hasConnector (destination : String) : Bool := destination.toLower ∈ registeredConnectors

structure WipeResult where
  success : Bool
  error : Option String := none
  retryable : Option Bool := none
  recordsFound : Option ℕ := none
  deriving DecidableEq

inductive TaskStatus where
  | pending | queued | complete | failed
  deriving DecidableEq

structure JanitorTask where
  destination : String
  status : TaskStatus := .pending
  attempts : ℕ := 0
  recordsFound : Option ℕ := none
  deriving DecidableEq

def cleanupTasks (destinations : List String) : List JanitorTask :=
  (destinations.filter hasConnector).map fun destination => { destination }

inductive PiiSystem where
  | bigquery | snowflake | gcs | firestore | log | hubspot | salesforce | external | pubsub
  deriving DecidableEq

def PiiSystem.name : PiiSystem → String
  | .bigquery => "bigquery"
  | .snowflake => "snowflake"
  | .gcs => "gcs"
  | .firestore => "firestore"
  | .log => "log"
  | .hubspot => "hubspot"
  | .salesforce => "salesforce"
  | .external => "external"
  | .pubsub => "pubsub"

inductive SourceRedactionStrategy where
  | none | redactInPlace | shadowCopy | encryptedCopy
  deriving DecidableEq

structure PiiRegistryEntry where
  resourceId : String
  system : PiiSystem
  tenantId : Option String
  ownerConnector : String
  tenantIdColumn : Option String := none
  userIdColumn : Option String := none
  piiFields : List String := []
  sourceRedactionStrategy : Option SourceRedactionStrategy := none
  sourceRedactionStrategies : Option (List SourceRedactionStrategy) := none
  deriving DecidableEq

def resolveSourceRedactionStrategies (entry : PiiRegistryEntry) : List SourceRedactionStrategy :=
  match entry.sourceRedactionStrategies with
  | some strategies => strategies
  | none =>
    match entry.sourceRedactionStrategy with
    | some .none => []
    | some strategy => [strategy]
    | none => []

def hasSourceRedactionStrategy (entry : PiiRegistryEntry) (strategy : SourceRedactionStrategy) : Bool :=
  strategy ∈ resolveSourceRedactionStrategies entry

def manualOwnerConnector : String := "manual"

def listManualEntries (tenantId : String) (entries : List PiiRegistryEntry) : List PiiRegistryEntry :=
  (entries.filter fun entry => entry.tenantId = none ∨ entry.tenantId = some tenantId).filter
    fun entry => entry.ownerConnector = manualOwnerConnector

def planRedaction (tenantId : String) (entries : List PiiRegistryEntry) : List PiiRegistryEntry :=
  (listManualEntries tenantId entries).filter (hasSourceRedactionStrategy · .redactInPlace)

def planEncryptedCopyDeletion (tenantId : String) (entries : List PiiRegistryEntry) : List PiiRegistryEntry :=
  (listManualEntries tenantId entries).filter (hasSourceRedactionStrategy · .encryptedCopy)

def redactInPlaceSuffix : String := "::REDACT_IN_PLACE"
def encryptedCopySuffix : String := "::ENCRYPTED_COPY"

structure Plan where
  tasks : List JanitorTask
  redactionResources : List PiiRegistryEntry
  encryptedCopyResources : List PiiRegistryEntry

def Plan.isEmpty (plan : Plan) : Bool :=
  plan.tasks.isEmpty && plan.redactionResources.isEmpty && plan.encryptedCopyResources.isEmpty

def Plan.destinations (plan : Plan) : List String :=
  plan.tasks.map JanitorTask.destination
    ++ plan.redactionResources.map (fun entry => entry.resourceId ++ redactInPlaceSuffix)
    ++ plan.encryptedCopyResources.map (fun entry => entry.resourceId ++ encryptedCopySuffix)

structure SourceRedactionResult where
  resourceId : String
  success : Bool
  rowsAffected : Option ℕ := none
  error : Option String := none
  deriving DecidableEq

structure Query where
  text : String
  userId : String
  tenantId : Option String
  deriving DecidableEq

def isIdentifierStart (c : Char) : Bool :=
  ('a' ≤ c && c ≤ 'z') || ('A' ≤ c && c ≤ 'Z') || c == '_'

def isIdentifierPart (c : Char) : Bool :=
  isIdentifierStart c || ('0' ≤ c && c ≤ '9')

def isSafeIdentifier (identifier : String) : Bool :=
  match identifier.toList with
  | [] => false
  | c :: cs => isIdentifierStart c && cs.all isIdentifierPart

def assertSafeIdentifiers (identifiers : List String) : Except String Unit :=
  match identifiers.find? fun identifier => !isSafeIdentifier identifier with
  | some identifier =>
    .error ("Refusing to use \"" ++ identifier ++ "\" as a SQL identifier: not a safe column/table name.")
  | none => .ok ()

structure TableRef where
  projectId : String
  datasetId : String
  tableId : String
  deriving DecidableEq

def bigqueryPrefix : String := "bigquery:"

def parseBigQueryResourceId (resourceId : String) : Except String TableRef :=
  let invalid := .error ("\"" ++ resourceId ++ "\" is not a bigquery resource ID in the form bigquery:project.dataset.table.")
  if bigqueryPrefix.toList.isPrefixOf resourceId.toList then
    match (resourceId.toList.drop bigqueryPrefix.length).splitOn '.' with
    | [projectId, datasetId, tableId] =>
      if projectId ≠ [] ∧ datasetId ≠ [] ∧ tableId ≠ [] then
        .ok ⟨String.ofList projectId, String.ofList datasetId, String.ofList tableId⟩
      else invalid
    | _ => invalid
  else invalid

def whereUser (userIdColumn : String) (tenantIdColumn : Option String) : String :=
  match truthy tenantIdColumn with
  | some tenantIdColumn => userIdColumn ++ " = @userId AND " ++ tenantIdColumn ++ " = @tenantId"
  | none => userIdColumn ++ " = @userId"

def queryParams (tenantIdColumn : Option String) (tenantId : String) : Option String :=
  (truthy tenantIdColumn).map fun _ => tenantId

def redactionQuery (resource : PiiRegistryEntry) (userId tenantId : String) : Except String Query :=
  if resource.system ≠ .bigquery then
    .error ("sourceRedactionStrategy REDACT_IN_PLACE is only implemented for bigquery resources, got \""
      ++ resource.system.name ++ "\".")
  else match truthy resource.userIdColumn with
    | none => .error "Resource has no userIdColumn declared; refusing to redact without a safe scope."
    | some userIdColumn =>
      if resource.piiFields = [] then .error "Resource has no declared piiFields to redact."
      else do
        assertSafeIdentifiers (userIdColumn :: (resource.tenantIdColumn.toList ++ resource.piiFields))
        let table ← parseBigQueryResourceId resource.resourceId
        let setClause := ", ".intercalate (resource.piiFields.map (· ++ " = NULL"))
        return {
          text := "UPDATE `" ++ table.projectId ++ "." ++ table.datasetId ++ "." ++ table.tableId ++ "` SET "
            ++ setClause ++ " WHERE " ++ whereUser userIdColumn resource.tenantIdColumn
          userId := userId
          tenantId := queryParams resource.tenantIdColumn tenantId }

def encryptedCopyQuery (resource : PiiRegistryEntry) (userId tenantId : String) : Except String Query :=
  if resource.system ≠ .bigquery then
    .error ("sourceRedactionStrategy ENCRYPTED_COPY is only implemented for bigquery resources, got \""
      ++ resource.system.name ++ "\".")
  else match truthy resource.userIdColumn with
    | none =>
      .error "Resource has no userIdColumn declared; refusing to delete from encrypted copy without a safe scope."
    | some userIdColumn => do
      assertSafeIdentifiers (userIdColumn :: resource.tenantIdColumn.toList)
      let table ← parseBigQueryResourceId resource.resourceId
      return {
        text := "DELETE FROM `" ++ table.projectId ++ "." ++ table.datasetId ++ "." ++ table.tableId
          ++ "_encrypted_raw` WHERE " ++ whereUser userIdColumn resource.tenantIdColumn
        userId := userId
        tenantId := queryParams resource.tenantIdColumn tenantId }

section Queries

variable {resource : PiiRegistryEntry} {userId tenantId : String} {query : Query}

lemma bind_ok_iff {α β : Type} {x : Except String α} {f : α → Except String β} {b : β} :
    x.bind f = .ok b ↔ ∃ a, x = .ok a ∧ f a = .ok b := by
  cases x with
  | error e => exact ⟨nofun, fun ⟨a, ha, _⟩ => nomatch ha⟩
  | ok a => exact ⟨fun h => ⟨a, rfl, h⟩, fun ⟨a', ha, h⟩ => Except.ok.inj ha ▸ h⟩

lemma assertSafeIdentifiers_ok_iff {identifiers : List String} {u : Unit} :
    assertSafeIdentifiers identifiers = .ok u ↔ ∀ identifier ∈ identifiers, isSafeIdentifier identifier = true := by
  rw [assertSafeIdentifiers]
  split
  · rename_i identifier hf
    have hunsafe := List.find?_some hf
    refine ⟨nofun, fun h => ?_⟩
    rw [h identifier (List.mem_of_find?_eq_some hf)] at hunsafe
    contradiction
  · rename_i hf
    refine ⟨fun _ identifier hm => ?_, fun _ => rfl⟩
    simpa using List.find?_eq_none.mp hf identifier hm

lemma redactionQuery_foreign (h : resource.system ≠ .bigquery) : redactionQuery resource userId tenantId = .error
    ("sourceRedactionStrategy REDACT_IN_PLACE is only implemented for bigquery resources, got \""
      ++ resource.system.name ++ "\".") :=
  if_pos h

lemma redactionQuery_ok_iff : redactionQuery resource userId tenantId = .ok query ↔
    resource.system = .bigquery ∧ resource.piiFields ≠ [] ∧ ∃ userIdColumn table,
      truthy resource.userIdColumn = some userIdColumn ∧
      (∀ identifier ∈ userIdColumn :: (resource.tenantIdColumn.toList ++ resource.piiFields),
        isSafeIdentifier identifier = true) ∧
      parseBigQueryResourceId resource.resourceId = .ok table ∧
      query = {
        text := "UPDATE `" ++ table.projectId ++ "." ++ table.datasetId ++ "." ++ table.tableId ++ "` SET "
          ++ ", ".intercalate (resource.piiFields.map (· ++ " = NULL"))
          ++ " WHERE " ++ whereUser userIdColumn resource.tenantIdColumn
        userId := userId
        tenantId := queryParams resource.tenantIdColumn tenantId } := by
  rw [redactionQuery]
  constructor
  · intro h
    split at h
    · contradiction
    · rename_i hsystem
      split at h
      · contradiction
      · rename_i userIdColumn hcolumn
        split at h
        · contradiction
        · rename_i hfields
          obtain ⟨_, hassert, h⟩ := bind_ok_iff.mp h
          obtain ⟨table, htable, h⟩ := bind_ok_iff.mp h
          exact ⟨not_not.mp hsystem, hfields, userIdColumn, table, hcolumn, assertSafeIdentifiers_ok_iff.mp hassert,
            htable, (Except.ok.inj h).symm⟩
  · rintro ⟨hsystem, hfields, userIdColumn, table, hcolumn, hsafe, htable, rfl⟩
    have hassert := (assertSafeIdentifiers_ok_iff (u := ())).mpr hsafe
    simp only [hsystem, hcolumn, hfields, hassert, htable]
    rfl

lemma encryptedCopyQuery_ok_iff : encryptedCopyQuery resource userId tenantId = .ok query ↔
    resource.system = .bigquery ∧ ∃ userIdColumn table, truthy resource.userIdColumn = some userIdColumn ∧
      (∀ identifier ∈ userIdColumn :: resource.tenantIdColumn.toList, isSafeIdentifier identifier = true) ∧
      parseBigQueryResourceId resource.resourceId = .ok table ∧
      query = {
        text := "DELETE FROM `" ++ table.projectId ++ "." ++ table.datasetId ++ "." ++ table.tableId
          ++ "_encrypted_raw` WHERE " ++ whereUser userIdColumn resource.tenantIdColumn
        userId := userId
        tenantId := queryParams resource.tenantIdColumn tenantId } := by
  rw [encryptedCopyQuery]
  constructor
  · intro h
    split at h
    · contradiction
    · rename_i hsystem
      split at h
      · contradiction
      · rename_i userIdColumn hcolumn
        obtain ⟨_, hassert, h⟩ := bind_ok_iff.mp h
        obtain ⟨table, htable, h⟩ := bind_ok_iff.mp h
        exact ⟨not_not.mp hsystem, userIdColumn, table, hcolumn, assertSafeIdentifiers_ok_iff.mp hassert, htable,
          (Except.ok.inj h).symm⟩
  · rintro ⟨hsystem, userIdColumn, table, hcolumn, hsafe, htable, rfl⟩
    have hassert := (assertSafeIdentifiers_ok_iff (u := ())).mpr hsafe
    simp only [hsystem, hcolumn, hassert, htable]
    rfl

end Queries

end ChameleonVault.Deletion
