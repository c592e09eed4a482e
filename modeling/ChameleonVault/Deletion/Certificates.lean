import ChameleonVault.Deletion.Sources

/-! What a certificate of destruction claims, and how the claims follow from the stored request. -/

namespace ChameleonVault.Deletion

open KeyRegistry (Date KeyStatus KeyState)

/-- Characters that `.` does not match in a regular expression. -/
def isLineTerminator (c : Char) : Bool :=
  c.toNat = 0x0a || c.toNat = 0x0d || c.toNat = 0x2028 || c.toNat = 0x2029

/-- A label that ends as given, after at least one character and within one line. -/
def parseLabel (suffix : String) (destination : String) : Option String :=
  if suffix.toList.isSuffixOf destination.toList then
    let resourceId := destination.toList.take (destination.toList.length - suffix.toList.length)
    if resourceId ≠ [] ∧ resourceId.any isLineTerminator = false then some (String.ofList resourceId) else none
  else none

def parseSourceRedactionDestination (destination : String) : Option (String × SourceRedactionStrategy) :=
  match parseLabel redactInPlaceSuffix destination with
  | some resourceId => some (resourceId, .redactInPlace)
  | none =>
    match parseLabel encryptedCopySuffix destination with
    | some resourceId => some (resourceId, .encryptedCopy)
    | none => none

def OneLine (resourceId : String) : Prop :=
  resourceId ≠ "" ∧ resourceId.toList.any isLineTerminator = false

instance (resourceId : String) : Decidable (OneLine resourceId) := inferInstanceAs (Decidable (_ ∧ _))

lemma parseLabel_append (resourceId suffix : String) :
    parseLabel suffix (resourceId ++ suffix) = if OneLine resourceId then some resourceId else none := by
  have hs : suffix.toList.isSuffixOf (resourceId ++ suffix).toList = true := by
    rw [List.isSuffixOf_iff_suffix, String.toList_append]
    exact List.suffix_append _ _
  have ht : (resourceId ++ suffix).toList.take
      ((resourceId ++ suffix).toList.length - suffix.toList.length) = resourceId.toList := by
    rw [String.toList_append, List.length_append, Nat.add_sub_cancel, List.take_left]
  have hn : resourceId.toList ≠ [] ↔ resourceId ≠ "" := by simp
  simp only [parseLabel, hs, if_true, ht, String.ofList_toList]
  by_cases h : OneLine resourceId
  · rw [if_pos h, if_pos ⟨hn.mpr h.1, h.2⟩]
  · rw [if_neg h, if_neg fun hc => h ⟨hn.mp hc.1, hc.2⟩]

inductive LineageStatus where
  | erased | confirmedAbsent | pending | failed
  deriving DecidableEq

structure LineageItem where
  system : String
  status : LineageStatus
  timestamp : Date
  deriving DecidableEq

structure BackupImmunityItem where
  resourceId : String
  strategy : SourceRedactionStrategy
  backupImmune : Bool
  redactedAt : Option Date := none
  immuneAsOf : Option Date := none
  reason : String
  deriving DecidableEq

structure LineageCoverage where
  destinationsChecked : ℕ
  destinationsSucceeded : ℕ
  knownDestinationTypes : List String
  deriving DecidableEq

structure GhostDataSummary where
  userLinked : Bool
  resourceId : String
  system : String
  column : Option String := none
  pattern : Option String := none
  count : Option ℕ := none
  scanner : Option String := none
  lastSeen : String
  deriving DecidableEq

structure Claims where
  iss : String
  sub : String
  tenantId : String
  keyDestructionStatus : String
  keyDestructionMethod : String
  warehouseData : String
  iat : ℕ
  jti : String
  shredDate : Date
  keyFingerprint : String
  lineageSummary : List LineageItem
  cryptoShredCoverage : String
  sourceRedactionExceptions : List BackupImmunityItem
  timeTravelCeilingHours : ℕ
  timeTravelCaveat : String
  lineageCoverage : LineageCoverage
  ghostDataSummary : List GhostDataSummary
  ghostDataScanCoverage : String
  deriving DecidableEq

def timeTravelCeilingHours : ℕ := 168
def timeTravelCeilingMs : ℕ := timeTravelCeilingHours * 60 * 60 * 1000

def timeTravelCaveat : String :=
  "BigQuery also retains an additional Google-support-assisted \"fail-safe\" recovery window after this "
    ++ "period ends, reachable only through Google's own recovery tooling, never a customer/self-service "
    ++ "query. This claim covers self-service, customer-queryable recovery only."

def foundNothing (details : WipeDetails) : Bool :=
  details.recordsFound = some 0 || details.rowsAffected = some 0

def lineageItem (wipe : JanitorWipe) : LineageItem :=
  ⟨wipe.destination, if foundNothing wipe.details then .confirmedAbsent else .erased, wipe.updatedAt⟩

def lineageSummary (wipes : List JanitorWipe) : List LineageItem :=
  (wipes.filter fun wipe => wipe.status = .succeeded).map lineageItem

def redactedInPlaceItem (now : Date) (resourceId : String) (redactedAt : Date) : BackupImmunityItem :=
  let elapsedMs : ℤ := (now : ℤ) - redactedAt
  let backupImmune : Bool := elapsedMs ≥ timeTravelCeilingMs
  { resourceId := resourceId
    strategy := .redactInPlace
    backupImmune := backupImmune
    redactedAt := some redactedAt
    immuneAsOf := if backupImmune then none else some (redactedAt + timeTravelCeilingMs)
    reason :=
      if backupImmune then
        "This table's plaintext was redacted in place; BigQuery's maximum time-travel window (168h) has "
          ++ "elapsed since then, so no pre-redaction plaintext remains queryable in a backup."
      else
        "This table's plaintext was redacted in place, but BigQuery's maximum time-travel window (168h) has "
          ++ "not yet elapsed since then -- the pre-redaction plaintext may still be queryable via BigQuery's "
          ++ "own time-travel until then." }

def encryptedCopyItem (resourceId : String) (redactedAt : Date) : BackupImmunityItem where
  resourceId := resourceId
  strategy := .encryptedCopy
  backupImmune := true
  redactedAt := some redactedAt
  reason := "Only ciphertext was ever stored in this table -- unconditionally backup-immune once the key "
    ++ "is shredded, same as pii_vault."

def shadowCopyItem (entry : PiiRegistryEntry) : BackupImmunityItem where
  resourceId := entry.resourceId
  strategy := .shadowCopy
  backupImmune := false
  reason := "This resource's source table was never modified -- only a live decrypted view was created "
    ++ "alongside it. Backups of the source table are not covered by crypto-shred at any age."

def wipeException (now : Date) (wipe : JanitorWipe) : Option BackupImmunityItem :=
  if wipe.status ≠ .succeeded then none
  else if foundNothing wipe.details then none
  else match parseSourceRedactionDestination wipe.destination with
    | some (resourceId, .encryptedCopy) => some (encryptedCopyItem resourceId wipe.updatedAt)
    | some (resourceId, _) => some (redactedInPlaceItem now resourceId wipe.updatedAt)
    | none => none

def sourceRedactionExceptions (now : Date) (wipes : List JanitorWipe) (manualEntries : List PiiRegistryEntry) :
    List BackupImmunityItem :=
  wipes.filterMap (wipeException now)
    ++ (manualEntries.filter (hasSourceRedactionStrategy · .shadowCopy)).map shadowCopyItem

def lineageCoverage (wipes : List JanitorWipe) (knownDestinationTypes : List String) : LineageCoverage :=
  ⟨wipes.length, (wipes.filter fun wipe => wipe.status = .succeeded).length, knownDestinationTypes⟩

def claimsFor (userId tenantId : String) (request : DeletionRequest) (keyStatus : KeyStatus)
    (manualEntries : List PiiRegistryEntry) (ghostDataSummary : List GhostDataSummary)
    (knownDestinationTypes : List String) (keyFingerprint : String) (checkedAt issuedAt : Date) : Claims where
  iss := "Chameleon Key Vault"
  sub := userId
  tenantId := tenantId
  keyDestructionStatus :=
    if keyStatus.status = .shredded ∨ keyStatus.status = .deleted then "COMPLETE" else "PENDING"
  keyDestructionMethod := "DEK_ERASURE"
  warehouseData := "CRYPTOGRAPHICALLY UNREADABLE"
  iat := issuedAt / 1000
  jti := "cert_" ++ userId ++ "_" ++ toString issuedAt
  shredDate := keyStatus.shredAt.getD issuedAt
  keyFingerprint := keyFingerprint
  lineageSummary := lineageSummary request.janitorWipes
  cryptoShredCoverage := "BACKUP_IMMUNE"
  sourceRedactionExceptions := sourceRedactionExceptions checkedAt request.janitorWipes manualEntries
  timeTravelCeilingHours := timeTravelCeilingHours
  timeTravelCaveat := timeTravelCaveat
  lineageCoverage := lineageCoverage request.janitorWipes knownDestinationTypes
  ghostDataSummary := ghostDataSummary
  ghostDataScanCoverage := "NOT_TRACKED"

structure Certificate where
  claims : Claims
  previousCertificateHash : Option String
  chainSequence : ℕ
  keyVersion : String
  signature : String
  deriving DecidableEq

structure CertificateChainState where
  sequence : ℕ
  lastHash : Option String
  lastDeletionRequestId : Option String
  updatedAt : Date

structure TsaTimestampInfo where
  obtained : Bool
  tsaUrl : String
  deriving DecidableEq

structure RekorLogEntryInfo where
  published : Bool
  rekorUrl : String
  deriving DecidableEq

structure CertificateChainEntry where
  tenantId : String
  sequence : ℕ
  previousHash : Option String
  deletionRequestId : String
  createdAt : Date
  tsaTimestamp : Option TsaTimestampInfo := none
  rekorEntry : Option RekorLogEntryInfo := none

structure StoredCertificate where
  certificate : Certificate
  userId : String
  deletionRequestId : String
  timestamp : Date
  hash : String
  tsaTimestamp : Option TsaTimestampInfo
  rekorEntry : Option RekorLogEntryInfo

end ChameleonVault.Deletion
