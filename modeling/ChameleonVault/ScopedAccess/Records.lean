import ChameleonVault.KeyRegistry.KeyMetadata

/-! The records behind scoped credentials, and the paths that each kind of credential may call. -/

namespace ChameleonVault.ScopedAccess

open KeyRegistry (Date)

section Records

inductive Role where
  | analyst | auditor
  deriving DecidableEq

inductive Kind where
  | analyst | service
  deriving DecidableEq

inductive Source where
  | claimLink | consoleSession
  deriving DecidableEq

structure AnalystAccess where
  claimTokenHash : String
  tenantId : String
  analystEmail : String
  createdAt : Date
  expiresAt : Date
  credentialKeyHash : Option String := none
  claimedAt : Option Date := none
  revokedAt : Option Date := none
  role : Option Role := none
  source : Option Source := none
  credentialExpiresAt : Option Date := none
  kind : Option Kind := none
  deriving DecidableEq

structure ResolvedAnalystIdentity where
  tenantId : String
  analystEmail : String
  role : Role
  kind : Option Kind
  deriving DecidableEq

namespace AnalystAccess

variable {record : AnalystAccess} {keyHash : String} {time : Date}

def identity (record : AnalystAccess) : ResolvedAnalystIdentity :=
  ⟨record.tenantId, record.analystEmail, record.role.getD .analyst, record.kind⟩

def issue (record : AnalystAccess) (claimedAt : Date) (credentialKeyHash : String) : AnalystAccess :=
  { record with claimedAt := some claimedAt, credentialKeyHash := some credentialKeyHash }

def revoke (record : AnalystAccess) (revokedAt : Date) : AnalystAccess :=
  { record with revokedAt := some revokedAt }

def expired (record : AnalystAccess) (now : Date) : Bool := record.credentialExpiresAt.any (· < now)

/-- What a record says about its holder, whatever has been claimed or revoked since. -/
def terms (record : AnalystAccess) : ResolvedAnalystIdentity × Date × Option Date :=
  (record.identity, record.expiresAt, record.credentialExpiresAt)

@[simp] lemma identity_issue : (record.issue time keyHash).identity = record.identity := rfl
@[simp] lemma identity_revoke : (record.revoke time).identity = record.identity := rfl
@[simp] lemma terms_issue : (record.issue time keyHash).terms = record.terms := rfl
@[simp] lemma terms_revoke : (record.revoke time).terms = record.terms := rfl
@[simp] lemma credentialKeyHash_issue : (record.issue time keyHash).credentialKeyHash = some keyHash := rfl
@[simp] lemma credentialKeyHash_revoke : (record.revoke time).credentialKeyHash = record.credentialKeyHash := rfl
@[simp] lemma claimedAt_issue : (record.issue time keyHash).claimedAt = some time := rfl
@[simp] lemma claimedAt_revoke : (record.revoke time).claimedAt = record.claimedAt := rfl
@[simp] lemma revokedAt_issue : (record.issue time keyHash).revokedAt = record.revokedAt := rfl
@[simp] lemma revokedAt_revoke : (record.revoke time).revokedAt = some time := rfl

lemma terms_eq_iff {record' : AnalystAccess} : record.terms = record'.terms ↔ record.identity = record'.identity ∧
    record.expiresAt = record'.expiresAt ∧ record.credentialExpiresAt = record'.credentialExpiresAt := by
  simp only [terms, Prod.mk.injEq]

end AnalystAccess

end Records

section Paths

/-- A pattern of the form `^/a/b/[^/]+$`: the names between the slashes, none for any segment. -/
abbrev PathPattern := List (Option String)

def matchesSegments : PathPattern → List (List Char) → Bool
  | [], [] => true
  | some name :: pattern, segment :: segments => segment == name.toList && matchesSegments pattern segments
  | none :: pattern, segment :: segments => !segment.isEmpty && matchesSegments pattern segments
  | _, _ => false

def PathPattern.test (pattern : PathPattern) (path : String) : Bool :=
  matchesSegments pattern (path.toList.splitOn '/')

def claimRoutePattern : PathPattern := [some "", some "admin", some "analyst-claims", none, some "claim"]

def analystCredentialExactPaths : List String :=
  ["/encrypt", "/decrypt", "/pii-registry/resources", "/deletion-requests", "/pii-vault/decrypt"]

def analystCredentialResourcePattern : PathPattern := [some "", some "pii-registry", some "resources", none]

def isAnalystCredentialAllowedPath (path : String) : Bool :=
  decide (path ∈ analystCredentialExactPaths) || analystCredentialResourcePattern.test path

def auditorCredentialRoutePattern : PathPattern := [some "", some "audit", some "key-status", none]

def isAuditorCredentialAllowedPath (path : String) : Bool := auditorCredentialRoutePattern.test path

def serviceCredentialExactPaths : List String := ["/deletion-requests"]

def serviceCredentialResourcePatterns : List PathPattern :=
  [[some "", some "deletion-requests", none], [some "", some "deletion-requests", none, some "advance"],
    [some "", some "certificate", none]]

def isServiceCredentialAllowedPath (path : String) : Bool :=
  decide (path ∈ serviceCredentialExactPaths) || serviceCredentialResourcePatterns.any (·.test path)

def isAllowedForCredential (identity : ResolvedAnalystIdentity) (path : String) : Bool :=
  if identity.role = .auditor then isAuditorCredentialAllowedPath path
  else if identity.kind = some .service then isServiceCredentialAllowedPath path
  else isAnalystCredentialAllowedPath path

def decryptedViewsBatchDecryptPath : String := "/internal/decrypted-views/batch-decrypt"

def publicVerificationPaths : List String := ["/public-key", "/rekor-signing-public-key", "/.well-known/jwks.json"]

def chainByHashRoutePattern : PathPattern := [some "", some "certificate-chain", some "by-hash", none]

def isExemptFromAuth (path : String) : Bool :=
  path == "/health" || path == "/version" || claimRoutePattern.test path || path == decryptedViewsBatchDecryptPath
    || decide (path ∈ publicVerificationPaths) || chainByHashRoutePattern.test path

/-- The path is on some list, so that a credential is worth looking up. -/
def isCredentialPath (path : String) : Bool :=
  isAnalystCredentialAllowedPath path || isAuditorCredentialAllowedPath path || isServiceCredentialAllowedPath path

inductive CredentialKind where
  | analyst | auditor | service
  deriving DecidableEq

def CredentialKind.allows : CredentialKind → String → Bool
  | .analyst, path => isAnalystCredentialAllowedPath path
  | .auditor, path => isAuditorCredentialAllowedPath path
  | .service, path => isServiceCredentialAllowedPath path

def ResolvedAnalystIdentity.credentialKind (identity : ResolvedAnalystIdentity) : CredentialKind :=
  if identity.role = .auditor then .auditor else if identity.kind = some .service then .service else .analyst

variable {identity : ResolvedAnalystIdentity} {path : String}

lemma isAllowedForCredential_eq : isAllowedForCredential identity path = identity.credentialKind.allows path := by
  rw [isAllowedForCredential, ResolvedAnalystIdentity.credentialKind]
  split
  · rfl
  · split <;> rfl

lemma isCredentialPath_of_allows {kind : CredentialKind} (h : kind.allows path = true) :
    isCredentialPath path = true := by
  rw [isCredentialPath]
  cases kind <;> simp only [CredentialKind.allows] at h <;> simp [h]

example : isServiceCredentialAllowedPath "/deletion-requests/7/advance" = true ∧
    isAnalystCredentialAllowedPath "/pii-registry/resources/7/mark-synced" = false := by decide +kernel

end Paths

end ChameleonVault.ScopedAccess
