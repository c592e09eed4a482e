import ChameleonVault.Coverage.Score
import ChameleonVault.PiiRegistry.Validation
import Mathlib.Data.List.Infix

/-! What the registry's policy says of an entry, and how much of it counts as covered. -/

namespace ChameleonVault.Coverage

open KeyRegistry (truthy)
open PiiRegistry (DELETION_STRATEGIES DeletionStrategy HANDLINGS PiiClassification PiiFieldPolicy PiiHandling
  PiiRegistryEntry)

section Policy

inductive PolicyIssueCode where
  | missingTenantScope | missingUserScope | directIdentifierInMart | manualReviewRequired | ghostScanDisabled
  deriving DecidableEq

inductive PolicySeverity where
  | info | warning | error
  deriving DecidableEq

inductive PolicyStatus where
  | pass | warn | fail
  deriving DecidableEq

structure RegistryPolicyIssue where
  code : PolicyIssueCode
  severity : PolicySeverity
  resourceId : String
  field : Option String := none
  message : String
  deriving DecidableEq

structure RegistryPolicyEvaluation where
  resourceId : String
  status : PolicyStatus
  issues : List RegistryPolicyIssue
  deriving DecidableEq

/-- What follows the last colon, or the whole where nothing does. -/
def resourceName (resourceId : String) : List Char :=
  match (resourceId.toList.splitOn ':').getLast? with
  | some name => if name = [] then resourceId.toList else name
  | none => resourceId.toList

def isMart (resourceId : String) : Bool :=
  ".mart_".toList <:+: resourceName resourceId || "mart_".toList <+: resourceName resourceId

def manualReviewMessage : String :=
  "Manual review is required before this resource can be considered fully automated."

def evaluateField (entry : PiiRegistryEntry) (isMart : Bool) (field : PiiFieldPolicy) : List RegistryPolicyIssue :=
  (if isMart ∧ field.classification = .directIdentifier ∧ field.handling ≠ .allowAggregateOnly then
      [⟨.directIdentifierInMart, .error, entry.resourceId, some field.name,
        "Mart resources may not expose direct identifiers without aggregate-only approval."⟩] else [])
    ++ if field.handling = .manualReview then
      [⟨.manualReviewRequired, .warning, entry.resourceId, some field.name, manualReviewMessage⟩] else []

def policyIssues (entry : PiiRegistryEntry) : List RegistryPolicyIssue :=
  (if entry.system = .bigquery ∧ truthy entry.tenantIdColumn = none then
      [⟨.missingTenantScope, .error, entry.resourceId, none,
        "Tenant-scoped warehouse resources must declare tenantIdColumn."⟩] else [])
    ++ (if entry.deletionStrategy = .cryptoShred ∧ truthy entry.userIdColumn = none then
      [⟨.missingUserScope, .error, entry.resourceId, none,
        "Crypto-shredded resources must declare how user scope is represented."⟩] else [])
    ++ (if entry.deletionStrategy = .manualReview then
      [⟨.manualReviewRequired, .warning, entry.resourceId, none, manualReviewMessage⟩] else [])
    ++ entry.piiFields.flatMap (evaluateField entry (isMart entry.resourceId))
    ++ if entry.ghostDataScan.enabled = false then
      [⟨.ghostScanDisabled, .info, entry.resourceId, none, "Ghost-data scanning is disabled for this resource."⟩]
    else []

def evaluateEntry (entry : PiiRegistryEntry) : RegistryPolicyEvaluation where
  resourceId := entry.resourceId
  status :=
    if (policyIssues entry).any fun issue => issue.severity = .error then .fail
    else if (policyIssues entry).any fun issue => issue.severity = .warning then .warn
    else .pass
  issues := policyIssues entry

end Policy

section Weights

def sensitivity : PiiClassification → ℚ
  | .directIdentifier => 3
  | .sensitive => 3
  | .contact => 2
  | .quasiIdentifier => 2
  | .behavioral => 1
  | .systemIdentifier => 1 / 2

def entryWeight (entry : PiiRegistryEntry) : ℚ :=
  max (1 / 2) (entry.piiFields.map fun field => sensitivity field.classification).sum

/-- Of the letters beyond ASCII only two become ASCII ones in lower case. -/
def lowercase (c : Char) : List Char :=
  if c.toNat = 0x130 then ['i', Char.ofNat 0x307] else if c.toNat = 0x212a then ['k'] else [c.toLower]

def has (name : String) (parts : List String) : Bool :=
  parts.any fun part => part.toList <:+: name.toList.flatMap lowercase

def columnSensitivity (name : String) : ℚ :=
  if has name ["email", "ssn", "social", "dob", "birth", "passport", "tax"] then 3
  else if has name ["phone", "mobile", "name", "address", "street", "city", "zip", "postal"] then 2
  else if has name ["ip", "geo", "device", "lat", "lon"] then 2
  else if has name ["_id", "id", "uuid", "token"] then 1 / 2
  else 2

inductive FindingStatus where
  | unregistered | drifted
  deriving DecidableEq

structure WarehouseDiscoveryFinding where
  resourceId : String
  system : String
  datasetId : Option String := none
  tableId : Option String := none
  registryStatus : FindingStatus
  columns : List String
  recommendedAction : Option String := none
  lastSeen : String
  deriving DecidableEq

def discoveryWeight (finding : WarehouseDiscoveryFinding) : ℚ := max 1 (finding.columns.map columnSensitivity).sum

end Weights

section Classification

def fieldIsShredSafe (field : PiiFieldPolicy) : Bool :=
  if field.handling = .encrypt ∨ field.handling = .tokenize then true
  else field.classification = .systemIdentifier && field.handling = .hashSurrogate

def nameOf {α : Type} [DecidableEq α] (names : List (String × α)) (value : α) : String :=
  ((names.find? fun entry => entry.2 = value).map Prod.fst).getD ""

def weakFields (entry : PiiRegistryEntry) : String :=
  let weak := ", ".intercalate ((entry.piiFields.filter fun field => !fieldIsShredSafe field).map fun field =>
    field.name ++ "=" ++ nameOf HANDLINGS field.handling)
  if weak = "" then "no fields" else weak

def coverageReasons (entry : PiiRegistryEntry) (status : PolicyStatus) : List String :=
  let reversibleOnlyViaKey := 0 < entry.piiFields.length && entry.piiFields.all fieldIsShredSafe
  (if reversibleOnlyViaKey = false then ["not key-reversible: " ++ weakFields entry] else [])
    ++ (if entry.deletionStrategy ≠ .cryptoShred then
      ["deletion strategy is " ++ nameOf DELETION_STRATEGIES entry.deletionStrategy ++ ", not CRYPTO_SHRED"] else [])
    ++ (if truthy entry.userIdColumn = none then ["no user identity link (userIdColumn) — no per-user key"] else [])
    ++ if status = .warn then ["policy WARNs"] else []

def classifyEntry (entry : PiiRegistryEntry) (status : PolicyStatus) : CoverageState × List String :=
  if status = .fail then (.exposedState, ["policy evaluation FAILs"])
  else if coverageReasons entry status = [] then (.protectedState, [])
  else (.partialState, coverageReasons entry status)

def declaredItem (evaluate : PiiRegistryEntry → PolicyStatus) (entry : PiiRegistryEntry) : CoverageItem where
  resourceId := entry.resourceId
  system := entry.system.name
  state := (classifyEntry entry (evaluate entry)).1
  weight := entryWeight entry
  reasons := (classifyEntry entry (evaluate entry)).2

def undeclaredItem (finding : WarehouseDiscoveryFinding) : CoverageItem where
  resourceId := finding.resourceId
  system := finding.system
  state := .exposedState
  weight := discoveryWeight finding
  reasons := [if finding.registryStatus = .drifted then "schema drift vs registry" else "discovered but undeclared"]

def toCoverageItems (entries : List PiiRegistryEntry) (evaluate : PiiRegistryEntry → PolicyStatus)
    (discovery : List WarehouseDiscoveryFinding) : List CoverageItem :=
  entries.map (declaredItem evaluate) ++ (discovery.filter fun finding =>
    finding.resourceId ∉ entries.map PiiRegistryEntry.resourceId).map undeclaredItem

end Classification

section Meaning

/-- What the policy does not let pass. -/
inductive Violates (entry : PiiRegistryEntry) : Prop
  | tenantScope (hsystem : entry.system = .bigquery) (hcolumn : truthy entry.tenantIdColumn = none)
  | userScope (hstrategy : entry.deletionStrategy = .cryptoShred) (hcolumn : truthy entry.userIdColumn = none)
  | identifier {field : PiiFieldPolicy} (hmart : isMart entry.resourceId = true) (hfield : field ∈ entry.piiFields)
      (hdirect : field.classification = .directIdentifier) (hhandling : field.handling ≠ .allowAggregateOnly)

/-- The user's data in the resource is gone once the user's key is. -/
structure Shreddable (entry : PiiRegistryEntry) : Prop where
  fields : entry.piiFields ≠ []
  safe : ∀ field ∈ entry.piiFields, field.handling = .encrypt ∨ field.handling = .tokenize ∨
    field.classification = .systemIdentifier ∧ field.handling = .hashSurrogate
  strategy : entry.deletionStrategy = .cryptoShred
  user : truthy entry.userIdColumn ≠ none
  tenant : entry.system = .bigquery → truthy entry.tenantIdColumn ≠ none
  mart : isMart entry.resourceId = true → ∀ field ∈ entry.piiFields, field.classification ≠ .directIdentifier

def evaluatedStatus (entry : PiiRegistryEntry) : PolicyStatus := (evaluateEntry entry).status

variable {entry : PiiRegistryEntry} {field : PiiFieldPolicy}

lemma any_severity {severity : PolicySeverity} : ((policyIssues entry).any fun issue => issue.severity = severity) = true ↔
    ∃ issue ∈ policyIssues entry, issue.severity = severity := by
  simp only [List.any_eq_true, decide_eq_true_eq]

lemma fail_iff : evaluatedStatus entry = .fail ↔ Violates entry := by
  have hstatus : evaluatedStatus entry = .fail ↔ ∃ issue ∈ policyIssues entry, issue.severity = .error := by
    rw [← any_severity, evaluatedStatus, evaluateEntry]
    split_ifs <;> simp_all
  rw [hstatus]
  simp only [policyIssues, evaluateField, List.mem_append, List.mem_flatMap, List.mem_ite_nil_right, List.mem_singleton]
  constructor
  · rintro ⟨issue, ((((⟨⟨hsystem, hcolumn⟩, rfl⟩ | ⟨⟨hstrategy, hcolumn⟩, rfl⟩) | ⟨-, rfl⟩) | ⟨field, hfield, hissue⟩) |
      ⟨-, rfl⟩), herror⟩
    · exact .tenantScope hsystem hcolumn
    · exact .userScope hstrategy hcolumn
    · cases herror
    · rcases hissue with ⟨⟨hmart, hdirect, hhandling⟩, rfl⟩ | ⟨-, rfl⟩
      · exact .identifier hmart hfield hdirect hhandling
      · cases herror
    · cases herror
  · intro h
    cases h with
    | tenantScope hsystem hcolumn => exact ⟨_, .inl (.inl (.inl (.inl ⟨⟨hsystem, hcolumn⟩, rfl⟩))), rfl⟩
    | userScope hstrategy hcolumn => exact ⟨_, .inl (.inl (.inl (.inr ⟨⟨hstrategy, hcolumn⟩, rfl⟩))), rfl⟩
    | @identifier field hmart hfield hdirect hhandling =>
      exact ⟨_, .inl (.inr ⟨field, hfield, .inl ⟨⟨hmart, hdirect, hhandling⟩, rfl⟩⟩), rfl⟩

lemma warn_iff : evaluatedStatus entry = .warn ↔ ¬Violates entry ∧
    (entry.deletionStrategy = .manualReview ∨ ∃ field ∈ entry.piiFields, field.handling = .manualReview) := by
  have hstatus : evaluatedStatus entry = .warn ↔ evaluatedStatus entry ≠ .fail ∧
      ∃ issue ∈ policyIssues entry, issue.severity = .warning := by
    rw [← any_severity, evaluatedStatus, evaluateEntry]
    split_ifs <;> simp_all
  rw [hstatus, Ne, fail_iff]
  refine and_congr_right fun _ => ?_
  simp only [policyIssues, evaluateField, List.mem_append, List.mem_flatMap, List.mem_ite_nil_right, List.mem_singleton]
  constructor
  · rintro ⟨issue, ((((⟨-, rfl⟩ | ⟨-, rfl⟩) | ⟨hstrategy, rfl⟩) | ⟨field, hfield, hissue⟩) | ⟨-, rfl⟩), hwarning⟩
    · cases hwarning
    · cases hwarning
    · exact .inl hstrategy
    · rcases hissue with ⟨-, rfl⟩ | ⟨hhandling, rfl⟩
      · cases hwarning
      · exact .inr ⟨field, hfield, hhandling⟩
    · cases hwarning
  · rintro (hstrategy | ⟨field, hfield, hhandling⟩)
    · exact ⟨_, .inl (.inl (.inr ⟨hstrategy, rfl⟩)), rfl⟩
    · exact ⟨_, .inl (.inr ⟨field, hfield, .inr ⟨hhandling, rfl⟩⟩), rfl⟩

lemma fieldIsShredSafe_iff : fieldIsShredSafe field = true ↔ field.handling = .encrypt ∨ field.handling = .tokenize ∨
    field.classification = .systemIdentifier ∧ field.handling = .hashSurrogate := by
  rw [fieldIsShredSafe]
  split
  · rename_i h
    exact iff_of_true rfl (by tauto)
  · rename_i h
    rw [Bool.and_eq_true, decide_eq_true_iff, decide_eq_true_iff]
    tauto

lemma coverageReasons_eq_nil {status : PolicyStatus} : coverageReasons entry status = [] ↔
    (entry.piiFields ≠ [] ∧ ∀ field ∈ entry.piiFields, fieldIsShredSafe field = true) ∧
      entry.deletionStrategy = .cryptoShred ∧ truthy entry.userIdColumn ≠ none ∧ status ≠ .warn := by
  simp only [coverageReasons, List.append_eq_nil_iff, ite_eq_right_iff, List.cons_ne_nil, imp_false, Bool.not_eq_false,
    Bool.and_eq_true, decide_eq_true_eq, List.length_pos_iff, List.all_eq_true, ne_eq, not_not]
  tauto

lemma exposed_iff {status : PolicyStatus} : (classifyEntry entry status).1 = .exposedState ↔ status = .fail := by
  rw [classifyEntry]
  split_ifs <;> simp_all

/-- Everything that is counted as protected is shreddable, and nothing else is. -/
lemma protected_iff : (classifyEntry entry (evaluatedStatus entry)).1 = .protectedState ↔ Shreddable entry := by
  have hstate : (classifyEntry entry (evaluatedStatus entry)).1 = .protectedState ↔
      evaluatedStatus entry ≠ .fail ∧ coverageReasons entry (evaluatedStatus entry) = [] := by
    rw [classifyEntry]
    split_ifs <;> simp_all
  simp only [hstate, coverageReasons_eq_nil, ne_eq, fail_iff, warn_iff]
  constructor
  · rintro ⟨hpolicy, ⟨hfields, hsafe⟩, hstrategy, huser, -⟩
    refine ⟨hfields, fun field hfield => fieldIsShredSafe_iff.mp (hsafe field hfield), hstrategy, huser,
      fun hsystem hcolumn => hpolicy (.tenantScope hsystem hcolumn), fun hmart field hfield hdirect => ?_⟩
    refine hpolicy (.identifier hmart hfield hdirect fun hhandling => ?_)
    rcases fieldIsShredSafe_iff.mp (hsafe field hfield) with h | h | ⟨-, h⟩
    all_goals
      rw [hhandling] at h
      cases h
  · intro h
    refine ⟨fun hviolates => ?_, ⟨h.fields, fun field hfield => fieldIsShredSafe_iff.mpr (h.safe field hfield)⟩,
      h.strategy, h.user, ?_⟩
    · cases hviolates with
      | tenantScope hsystem hcolumn => exact h.tenant hsystem hcolumn
      | userScope hstrategy hcolumn => exact h.user hcolumn
      | identifier hmart hfield hdirect hhandling => exact h.mart hmart _ hfield hdirect
    · rintro ⟨-, hstrategy | ⟨field, hfield, hhandling⟩⟩
      · rw [h.strategy] at hstrategy
        cases hstrategy
      · rcases h.safe field hfield with hsafe | hsafe | ⟨-, hsafe⟩
        all_goals
          rw [hhandling] at hsafe
          cases hsafe

instance decidableViolates (entry : PiiRegistryEntry) : Decidable (Violates entry) := decidable_of_iff _ fail_iff

instance decidableShreddable (entry : PiiRegistryEntry) : Decidable (Shreddable entry) := decidable_of_iff _ protected_iff

lemma entryWeight_pos : 0 < entryWeight entry := lt_max_of_lt_left (by norm_num)

lemma discoveryWeight_pos {finding : WarehouseDiscoveryFinding} : 0 < discoveryWeight finding :=
  lt_max_of_lt_left one_pos

end Meaning

end ChameleonVault.Coverage
