import ChameleonVault.PiiRegistry.Entries

/-! From a declaration as it comes in to a manual entry of the registry, or the list of what is
wrong with it. -/

namespace ChameleonVault.PiiRegistry

open KeyRegistry (truthy)
open Deletion (PiiSystem SourceRedactionStrategy manualOwnerConnector)

section Names

def CLASSIFICATIONS : List (String × PiiClassification) :=
  [("DIRECT_IDENTIFIER", .directIdentifier), ("QUASI_IDENTIFIER", .quasiIdentifier), ("CONTACT", .contact),
    ("SENSITIVE", .sensitive), ("BEHAVIORAL", .behavioral), ("SYSTEM_IDENTIFIER", .systemIdentifier)]

def HANDLINGS : List (String × PiiHandling) :=
  [("ENCRYPT", .encrypt), ("TOKENIZE", .tokenize), ("REDACT", .redact), ("HASH_SURROGATE", .hashSurrogate),
    ("ALLOW_AGGREGATE_ONLY", .allowAggregateOnly), ("MANUAL_REVIEW", .manualReview)]

def SYSTEMS : List (String × PiiSystem) :=
  [.bigquery, .gcs, .firestore, .log, .hubspot, .salesforce, .external, .pubsub].map fun system =>
    (system.name, system)

def DELETION_STRATEGIES : List (String × DeletionStrategy) :=
  [("CRYPTO_SHRED", .cryptoShred), ("DELETE_ROWS", .deleteRows), ("REDACT_FIELDS", .redactFields),
    ("EXTERNAL_WIPE", .externalWipe), ("MANUAL_REVIEW", .manualReview)]

def SOURCE_REDACTION_ARRAY_STRATEGIES : List (String × SourceRedactionStrategy) :=
  [("REDACT_IN_PLACE", .redactInPlace), ("SHADOW_COPY", .shadowCopy), ("ENCRYPTED_COPY", .encryptedCopy)]

def SOURCE_REDACTION_STRATEGIES : List (String × SourceRedactionStrategy) :=
  ("NONE", .none) :: SOURCE_REDACTION_ARRAY_STRATEGIES

def LAYERS : List (String × PiiResourceLayer) :=
  [("RAW", .raw), ("STAGING", .staging), ("INTERMEDIATE", .intermediate), ("MART", .mart), ("SAAS", .saas)]

def VISIBILITIES : List (String × PiiResourceVisibility) :=
  [("CUSTOMER_FACING", .customerFacing), ("INTERNAL", .internal)]

def STATUSES : List (String × RegistryEntryStatus) :=
  [("APPROVED", .approved), ("PENDING_REVIEW", .pendingReview), ("DEPRECATED", .deprecated), ("DISABLED", .disabled)]

def SCAN_MODES : List (String × ScanMode) := [("FULL", .full), ("SAMPLED", .sampled), ("DISABLED", .disabled)]

def oneOf {α : Type} (field : String) (names : List (String × α)) : String :=
  field ++ " must be one of: " ++ ", ".intercalate (names.map Prod.fst) ++ "."

end Names

section Input

structure PiiFieldDeclarationInput where
  name : Option String := none
  classification : Option String := none
  handling : Option String := none
  requiredInMart : Option Bool := none

structure GhostDataScanInput where
  enabled : Option Bool := none
  scanMode : Option String := none
  patterns : Option (List String) := none

structure PiiRegistryDeclarationInput where
  resourceId : Option String := none
  system : Option String := none
  resourceLayer : Option String := none
  visibility : Option String := none
  tenantIdColumn : Option String := none
  userIdColumn : Option String := none
  pubsubAllowedCallerServiceAccount : Option String := none
  userIdFieldPath : Option String := none
  updatedAtColumn : Option String := none
  piiFields : Option (List PiiFieldDeclarationInput) := none
  deletionStrategy : Option String := none
  sourceRedactionStrategy : Option String := none
  sourceRedactionStrategies : Option (List String) := none
  ghostDataScan : Option GhostDataScanInput := none
  status : Option String := none
  notes : Option String := none

/-- White space and line ends, for `trim` and for `\s`. -/
def isSpace (c : Char) : Bool :=
  c.toNat ∈ [0x09, 0x0a, 0x0b, 0x0c, 0x0d, 0x20, 0xa0, 0x1680, 0x2028, 0x2029, 0x202f, 0x205f, 0x3000, 0xfeff]
    || (0x2000 ≤ c.toNat && c.toNat ≤ 0x200a)

def isNonEmptyString : Option String → Bool
  | some value => value.toList.any fun c => !isSpace c
  | none => false

def isLowercase (c : Char) : Bool := 'a' ≤ c && c ≤ 'z'

/-- `/^[a-z]+:[^\s]+$/` -/
def isResourceId (resourceId : String) : Bool :=
  let scheme := resourceId.toList.takeWhile isLowercase
  match resourceId.toList.dropWhile isLowercase with
  | ':' :: rest => scheme ≠ [] && rest ≠ [] && rest.all fun c => !isSpace c
  | _ => false

def trim (value : String) : String :=
  String.ofList ((value.toList.dropWhile isSpace).reverse.dropWhile isSpace).reverse

def tenantOf (header : Option String) : String :=
  match header.map trim with
  | some tenantId => if tenantId = "" then Deletion.defaultTenant else tenantId
  | none => Deletion.defaultTenant

end Input

section Checks

/-- Set by the checks below, one message for each that fails. -/
abbrev Errors := List String

def check (holds : Bool) (message : String) : Errors := if holds then [] else [message]

def isNamed {α : Type} (names : List (String × α)) (value : Option String) : Bool :=
  value.any fun name => names.any fun entry => entry.1 = name

def isNamedIfSet {α : Type} (names : List (String × α)) (value : Option String) : Bool :=
  value.all fun name => names.any fun entry => entry.1 = name

def named {α : Type} (names : List (String × α)) (value : Option String) : Option α :=
  value.bind fun name => names.lookup name

def resourceIdErrors (resourceId : Option String) : Errors :=
  if isNonEmptyString resourceId then
    check (resourceId.any isResourceId)
      "resourceId must be a URI-like value such as \"bigquery:project.dataset.table\" or \"gcs:bucket/prefix\"."
  else ["resourceId is required."]

def strategyErrors (strategies : List String) : Errors :=
  (strategies.zipIdx.map fun (strategy, index) =>
    check (isNamed SOURCE_REDACTION_ARRAY_STRATEGIES (some strategy))
      ("sourceRedactionStrategies[" ++ toString index ++ "] must be one of: "
        ++ ", ".intercalate (SOURCE_REDACTION_ARRAY_STRATEGIES.map Prod.fst)
        ++ " ('NONE' is not valid inside the array -- send an empty array for none).")).flatten

def fieldErrors (field : PiiFieldDeclarationInput) (index : ℕ) : Errors :=
  let path := "piiFields[" ++ toString index ++ "]"
  check (isNonEmptyString field.name) (path ++ ".name is required.")
    ++ check (isNamed CLASSIFICATIONS field.classification) (oneOf (path ++ ".classification") CLASSIFICATIONS)
    ++ check (isNamed HANDLINGS field.handling) (oneOf (path ++ ".handling") HANDLINGS)

def piiFieldsErrors : Option (List PiiFieldDeclarationInput) → Errors
  | some (field :: fields) => ((field :: fields).zipIdx.map fun (field, index) => fieldErrors field index).flatten
  | _ => ["piiFields must contain at least one field."]

def requestedSourceRedactionStrategies (input : PiiRegistryDeclarationInput) : List String :=
  match input.sourceRedactionStrategies with
  | some strategies => strategies
  | none =>
    match truthy input.sourceRedactionStrategy with
    | some strategy => if strategy = "NONE" then [] else [strategy]
    | none => []

def pubsubErrors (input : PiiRegistryDeclarationInput) : Errors :=
  if input.system = some "pubsub" then
    check (isNonEmptyString input.pubsubAllowedCallerServiceAccount)
        "pubsubAllowedCallerServiceAccount is required when system is pubsub."
      ++ check (isNonEmptyString input.userIdFieldPath) "userIdFieldPath is required when system is pubsub."
  else []

def declarationErrors (input : PiiRegistryDeclarationInput) (tenantId : String) : Errors :=
  check (isNonEmptyString (some tenantId)) "tenantId is required (pass it via the x-tenant-id header)."
    ++ resourceIdErrors input.resourceId
    ++ check (isNamed SYSTEMS input.system) (oneOf "system" SYSTEMS)
    ++ check (isNamedIfSet LAYERS input.resourceLayer) (oneOf "resourceLayer" LAYERS)
    ++ check (isNamedIfSet VISIBILITIES input.visibility) (oneOf "visibility" VISIBILITIES)
    ++ check (isNamedIfSet DELETION_STRATEGIES input.deletionStrategy)
      (oneOf "deletionStrategy" DELETION_STRATEGIES)
    ++ check (isNamedIfSet SOURCE_REDACTION_STRATEGIES input.sourceRedactionStrategy)
      (oneOf "sourceRedactionStrategy" SOURCE_REDACTION_STRATEGIES)
    ++ strategyErrors (input.sourceRedactionStrategies.getD [])
    ++ check (requestedSourceRedactionStrategies input = [] || isNonEmptyString input.userIdColumn)
      ("userIdColumn is required when sourceRedactionStrategies is non-empty (REDACT_IN_PLACE, SHADOW_COPY, "
        ++ "and ENCRYPTED_COPY all need it).")
    ++ check (!(isNonEmptyString input.userIdColumn && isNonEmptyString input.tenantIdColumn
        && input.userIdColumn = input.tenantIdColumn))
      ("userIdColumn and tenantIdColumn cannot be the same column -- this makes every row's tenant_id a "
        ++ "per-user value instead of a real tenant identifier, and (with REDACT_IN_PLACE/SHADOW_COPY) an "
        ++ "unsatisfiable WHERE clause. Leave tenantIdColumn unset for a single-tenant source.")
    ++ pubsubErrors input
    ++ check (isNamedIfSet STATUSES input.status) (oneOf "status" STATUSES)
    ++ piiFieldsErrors input.piiFields
    ++ check (isNamedIfSet SCAN_MODES (input.ghostDataScan.bind (·.scanMode))) (oneOf "ghostDataScan.scanMode" SCAN_MODES)

end Checks

section Entry

def manualDeclaration : String := "console:manual-declaration"

def piiFieldOf (field : PiiFieldDeclarationInput) : PiiFieldPolicy where
  name := field.name.getD ""
  classification := (named CLASSIFICATIONS field.classification).getD .directIdentifier
  handling := (named HANDLINGS field.handling).getD .manualReview
  requiredInMart := field.requiredInMart.getD false
  confidence := some .declared
  evidence := some [manualDeclaration]

def ghostDataScanOf (input : Option GhostDataScanInput) : GhostDataScanPolicy where
  enabled := (input.bind (·.enabled)).getD true
  scanMode := (named SCAN_MODES (input.bind (·.scanMode))).getD .sampled
  patterns := (input.bind (·.patterns)).getD ["EMAIL", "PHONE", "NAME"]

/-- Built once the checks have passed, so that every name stands for a value. -/
def manualEntry (input : PiiRegistryDeclarationInput) (tenantId nowIso : String) (existing : Option PiiRegistryEntry)
    (actorEmail : Option String) : PiiRegistryEntry where
  registryVersion := String.ofList (nowIso.toList.take 10)
  resourceId := input.resourceId.getD ""
  system := (named SYSTEMS input.system).getD .external
  resourceLayer := named LAYERS input.resourceLayer
  visibility := some ((named VISIBILITIES input.visibility).getD .customerFacing)
  tenantIdColumn := input.tenantIdColumn
  userIdColumn := input.userIdColumn
  pubsubAllowedCallerServiceAccount := input.pubsubAllowedCallerServiceAccount
  userIdFieldPath := input.userIdFieldPath
  updatedAtColumn := input.updatedAtColumn
  piiFields := (input.piiFields.getD []).map piiFieldOf
  ownerConnector := manualOwnerConnector
  lineageDestination := input.resourceId.getD ""
  deletionStrategy := (named DELETION_STRATEGIES input.deletionStrategy).getD .cryptoShred
  sourceRedactionStrategy := some ((named SOURCE_REDACTION_STRATEGIES input.sourceRedactionStrategy).getD .none)
  sourceRedactionStrategies :=
    some ((requestedSourceRedactionStrategies input).filterMap fun name => SOURCE_REDACTION_ARRAY_STRATEGIES.lookup name)
  ghostDataScan := ghostDataScanOf input.ghostDataScan
  handlingPolicy := "manual_declaration"
  evidencePointers := [manualDeclaration]
  notes := input.notes
  tenantId := some tenantId
  status := some ((named STATUSES input.status).getD .pendingReview)
  createdAt := some ((existing.bind (·.createdAt)).getD nowIso)
  updatedAt := some nowIso
  declaredBy := (existing.bind (·.declaredBy)).or actorEmail
  lastModifiedBy := actorEmail

def buildManualEntry (input : PiiRegistryDeclarationInput) (tenantId nowIso : String)
    (existing : Option PiiRegistryEntry) (actorEmail : Option String) : Except Errors PiiRegistryEntry :=
  match declarationErrors input tenantId with
  | [] => .ok (manualEntry input tenantId nowIso existing actorEmail)
  | errors => .error errors

def usersDeclaration : PiiRegistryDeclarationInput where
  resourceId := some "bigquery:p.d.users"
  system := some "bigquery"
  piiFields := some [{ name := some "email", classification := some "CONTACT", handling := some "REDACT" }]

def usersOf (tenantId : String) : PiiRegistryEntry :=
  manualEntry usersDeclaration tenantId "2026-01-01T00:00:00.000Z" none none

end Entry

end ChameleonVault.PiiRegistry
