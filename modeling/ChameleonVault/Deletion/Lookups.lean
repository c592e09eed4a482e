import ChameleonVault.Collections.Selection
import ChameleonVault.Deletion.Ownership
import ChameleonVault.Deletion.Downloads
import Mathlib.Data.String.Basic

/-! The certificate of a user and the latest one of a tenant: which request each lookup selects, and
what it then makes of it. -/

namespace ChameleonVault.Deletion

open Collections Concurrency Interleaving Discipline
open KeyRegistry (Date truthy KeyStatus)

variable {d : Deployment} {w : World} {userId tenantId : String} {request other : DeletionRequest}

section Service

structure EvidentiaryStatus where
  chainSequence : Option ℕ
  timestamp : String
  transparencyLog : String
  hardwareAttestation : String := "NOT_AVAILABLE"
  deriving DecidableEq

def EvidentiaryStatus.linked (status : EvidentiaryStatus) : Bool := status.chainSequence.isSome

/-- A certificate signed on demand has no place in a chain. -/
inductive ServedCertificate where
  | chained (certificate : Certificate)
  | unchained (claims : Claims) (keyVersion signature : String)
  deriving DecidableEq

def ServedCertificate.chainSequence : ServedCertificate → Option ℕ
  | .chained certificate => some certificate.chainSequence
  | .unchained _ _ _ => none

structure RetrievedCertificate where
  certificate : ServedCertificate
  stored : Bool
  evidentiaryStatus : EvidentiaryStatus
  deriving DecidableEq

/-- What the world outside the stores contributes to a certificate that is signed on demand. -/
structure OnDemand where
  ghostDataSummary : Except String (List GhostDataSummary)
  keyFingerprint : Except String String
  sign : Claims → Except String (String × String)

namespace CertificateService

def buildEvidentiaryStatus (certificate : ServedCertificate) (tsaTimestamp : Option TsaTimestampInfo)
    (rekorEntry : Option RekorLogEntryInfo) : EvidentiaryStatus where
  chainSequence := certificate.chainSequence
  timestamp := match tsaTimestamp with
    | some info => if info.obtained then "OBTAINED" else "FAILED"
    | none => "NOT_ATTEMPTED"
  transparencyLog := match rekorEntry with
    | some info => if info.published then "PUBLISHED" else "FAILED"
    | none => "NOT_ATTEMPTED"

end CertificateService

def StoredCertificate.served (stored : StoredCertificate) : RetrievedCertificate where
  certificate := .chained stored.certificate
  stored := true
  evidentiaryStatus :=
    CertificateService.buildEvidentiaryStatus (.chained stored.certificate) stored.tsaTimestamp stored.rekorEntry

structure LatestCertificate where
  certificate : ServedCertificate
  userId : String
  evidentiaryStatus : EvidentiaryStatus
  deriving DecidableEq

namespace World

def getLatestCompletedDeletionRequestForUser (userId tenantId : String) (w : World) : Option DeletionRequest :=
  newest <| w.requests.filter fun r =>
    r.userId = userId ∧ r.tenantId = some tenantId ∧ r.status ∈ [.cascadeComplete, .certificateIssued]

/-- The claims that the signer makes, from what it reads for itself. -/
def claimsOnDemand (onDemand : OnDemand) (userId tenantId id : String) (w : World) : Except String Claims := do
  let ghostDataSummary ← onDemand.ghostDataSummary
  let (keyStatus, request) ← CertificateSigner.assertReady userId (w.getKeyStatus userId tenantId)
    (w.deletionRequests.lookup id)
  let keyFingerprint ← onDemand.keyFingerprint
  return claimsFor userId tenantId request keyStatus
    (w.declarations.filter fun entry => entry.tenantId = some tenantId) ghostDataSummary registeredConnectors
    keyFingerprint w.clock w.clock

def resign (onDemand : OnDemand) (userId tenantId id : String) (w : World) : Except String RetrievedCertificate := do
  let claims ← w.claimsOnDemand onDemand userId tenantId id
  let (keyVersion, signature) ← onDemand.sign claims
  let certificate := ServedCertificate.unchained claims keyVersion signature
  return ⟨certificate, false, CertificateService.buildEvidentiaryStatus certificate none none⟩

/-- The path of the certificate that a completed request has stored. -/
def storedPath (request : DeletionRequest) : Option String :=
  if request.status = .certificateIssued then truthy request.certificateGcsPath else none

def getCertificateForUser (d : Deployment) (onDemand : OnDemand) (userId tenantId : String) (w : World) :
    Except String RetrievedCertificate := do
  let (_, deletionRequest) ← CertificateSigner.assertReady userId (w.getKeyStatus userId tenantId)
    (w.getLatestCompletedDeletionRequestForUser userId tenantId)
  match storedPath deletionRequest with
  | some gcsPath => return (← w.downloadCertificate d gcsPath).served
  | none => w.resign onDemand userId tenantId deletionRequest.deletionRequestId

def getLatestCertificateForTenant (d : Deployment) (onDemand : OnDemand) (tenantId : String) (w : World) :
    Except String (Option LatestCertificate) :=
  match w.getMostRecentCertificateIssuedForTenant tenantId with
  | none => return none
  | some deletionRequest => do
    let retrieved ← w.getCertificateForUser d onDemand deletionRequest.userId tenantId
    return some ⟨retrieved.certificate, deletionRequest.userId, retrieved.evidentiaryStatus⟩

end World

end Service

section Selections

lemma newest_eq_best (requests : List DeletionRequest) : newest requests = best newer requests := by
  induction requests with
  | nil => rfl
  | cons r rs ih =>
    rw [newest, best, ih]
    cases best newer rs <;> rfl

lemma lastIssued_eq_best (requests : List DeletionRequest) : lastIssued requests = best issuedLater requests := by
  induction requests with
  | nil => rfl
  | cons r rs ih =>
    rw [lastIssued, best, ih]
    cases best issuedLater rs <;> rfl

lemma newer_ranks : Ranks newer :=
  ranks_of_keys DeletionRequest.createdAt DeletionRequest.deletionRequestId

lemma issuedLater_ranks : Ranks issuedLater :=
  ranks_of_keys (fun request : DeletionRequest => request.certificateIssuedAt.getD 0) DeletionRequest.deletionRequestId

lemma request_inj (hw : Keyed w) (hr : request ∈ w.requests) (ho : other ∈ w.requests)
    (hid : request.deletionRequestId = other.deletionRequestId) : request = other := by
  obtain ⟨id, hl⟩ := mem_requests.mp hr
  obtain ⟨id', hl'⟩ := mem_requests.mp ho
  rw [hw id request hl, hw id' other hl'] at hid
  rw [hid, hl'] at hl
  exact (Option.some.inj hl).symm

lemma newer_antisymm (h : newer request other = false) (h' : newer other request = false) :
    request.deletionRequestId = other.deletionRequestId := by
  simp only [newer, Bool.or_eq_false_iff, Bool.and_eq_false_imp, decide_eq_true_eq, decide_eq_false_iff_not, not_lt] at h h'
  have hcreated : request.createdAt = other.createdAt := le_antisymm h.1 h'.1
  exact le_antisymm (h.2 hcreated.symm) (h'.2 hcreated)

lemma issuedLater_antisymm (h : issuedLater request other = false) (h' : issuedLater other request = false) :
    request.deletionRequestId = other.deletionRequestId := by
  simp only [issuedLater, Bool.or_eq_false_iff, Bool.and_eq_false_imp, decide_eq_true_eq, decide_eq_false_iff_not,
    not_lt] at h h'
  have hissued : request.certificateIssuedAt.getD 0 = other.certificateIssuedAt.getD 0 := le_antisymm h.1 h'.1
  exact le_antisymm (h.2 hissued.symm) (h'.2 hissued)

def Completed (userId tenantId : String) (request : DeletionRequest) : Prop :=
  request.BelongsTo userId tenantId ∧ (request.status = .cascadeComplete ∨ request.status = .certificateIssued)

/-- Of the completed requests of the subject none was created later. -/
structure NewestCompleted (userId tenantId : String) (request : DeletionRequest) (w : World) : Prop where
  stored : request ∈ w.requests
  completed : Completed userId tenantId request
  newest (other : DeletionRequest) : other ∈ w.requests → Completed userId tenantId other → newer other request = false

def IssuedIn (tenantId : String) (request : DeletionRequest) : Prop :=
  request.tenantId = some tenantId ∧ request.status = .certificateIssued ∧ request.certificateIssuedAt.isSome = true

/-- Of the requests of the tenant with a certificate none had it issued later. -/
structure LastIssued (tenantId : String) (request : DeletionRequest) (w : World) : Prop where
  stored : request ∈ w.requests
  issued : IssuedIn tenantId request
  last (other : DeletionRequest) : other ∈ w.requests → IssuedIn tenantId other → issuedLater other request = false

lemma getLatestCompleted_iff (hw : Keyed w) :
    w.getLatestCompletedDeletionRequestForUser userId tenantId = some request ↔
      NewestCompleted userId tenantId request w := by
  have hfilter (r : DeletionRequest) : r ∈ w.requests.filter (fun r => r.userId = userId ∧ r.tenantId = some tenantId ∧
      r.status ∈ [.cascadeComplete, .certificateIssued]) ↔ r ∈ w.requests ∧ Completed userId tenantId r := by
    simp [List.mem_filter, Completed, DeletionRequest.BelongsTo, and_assoc]
  rw [World.getLatestCompletedDeletionRequestForUser, newest_eq_best, best_eq_some_iff newer_ranks]
  · simp only [hfilter]
    exact ⟨fun h => ⟨h.1.1, h.1.2, fun other hm hc => h.2 other ⟨hm, hc⟩⟩,
      fun h => ⟨⟨h.stored, h.completed⟩, fun other hm => h.newest other hm.1 hm.2⟩⟩
  · intro a ha b hb hab hba
    exact request_inj hw ((hfilter a).mp ha).1 ((hfilter b).mp hb).1 (newer_antisymm hab hba)

lemma getMostRecentCertificateIssued_iff (hw : Keyed w) :
    w.getMostRecentCertificateIssuedForTenant tenantId = some request ↔ LastIssued tenantId request w := by
  have hfilter (r : DeletionRequest) : r ∈ w.requests.filter (fun r => r.tenantId = some tenantId ∧
      r.status = .certificateIssued ∧ r.certificateIssuedAt.isSome = true) ↔ r ∈ w.requests ∧ IssuedIn tenantId r := by
    simp [List.mem_filter, IssuedIn]
  rw [World.getMostRecentCertificateIssuedForTenant, lastIssued_eq_best, best_eq_some_iff issuedLater_ranks]
  · simp only [hfilter]
    exact ⟨fun h => ⟨h.1.1, h.1.2, fun other hm hc => h.2 other ⟨hm, hc⟩⟩,
      fun h => ⟨⟨h.stored, h.issued⟩, fun other hm => h.last other hm.1 hm.2⟩⟩
  · intro a ha b hb hab hba
    exact request_inj hw ((hfilter a).mp ha).1 ((hfilter b).mp hb).1 (issuedLater_antisymm hab hba)

end Selections

section Retrieved

variable {onDemand : OnDemand} {retrieved : RetrievedCertificate} {stored : StoredCertificate} {gcsPath : String}

def KeyErased (userId tenantId : String) (w : World) : Prop :=
  ∃ keyStatus, w.getKeyStatus userId tenantId = some keyStatus ∧
    (keyStatus.status = .shredded ∨ keyStatus.status = .deleted)

lemma assertKeyShredded_ok_iff {keyStatus : Option KeyStatus} {status : KeyStatus} :
    CertificateSigner.assertKeyShredded userId keyStatus = .ok status ↔
      keyStatus = some status ∧ (status.status = .shredded ∨ status.status = .deleted) := by
  cases keyStatus with
  | none => exact ⟨nofun, fun h => nomatch h.1⟩
  | some found =>
    simp only [CertificateSigner.assertKeyShredded]
    split
    · rename_i he
      exact ⟨fun h => Except.ok.inj h ▸ ⟨rfl, he⟩, fun h => congrArg Except.ok (Option.some.inj h.1)⟩
    · rename_i he
      exact ⟨nofun, fun h => absurd (Option.some.inj h.1 ▸ h.2) he⟩

lemma assertCascadeComplete_ok_iff {evidence : Option DeletionRequest} :
    CertificateSigner.assertCascadeComplete userId evidence = .ok request ↔
      evidence = some request ∧ (request.status = .cascadeComplete ∨ request.status = .certificateIssued) := by
  cases evidence with
  | none => exact ⟨fun h => (by cases h), fun h => (by cases h.1)⟩
  | some found =>
    simp only [CertificateSigner.assertCascadeComplete]
    split
    · rename_i hc
      exact ⟨fun h => Except.ok.inj h ▸ ⟨rfl, hc⟩, fun h => congrArg Except.ok (Option.some.inj h.1)⟩
    · rename_i hc
      exact ⟨fun h => (by cases h), fun h => absurd (Option.some.inj h.1 ▸ h.2) hc⟩

lemma bind_eq_ok_iff {α β : Type} {x : Except String α} {f : α → Except String β} {b : β} :
    (x >>= f) = .ok b ↔ ∃ a, x = .ok a ∧ f a = .ok b := bind_ok_iff

lemma assertReady_ok_iff {keyStatus : Option KeyStatus} {evidence : Option DeletionRequest}
    {result : KeyStatus × DeletionRequest} :
    CertificateSigner.assertReady userId keyStatus evidence = .ok result ↔
      (keyStatus = some result.1 ∧ (result.1.status = .shredded ∨ result.1.status = .deleted)) ∧
        evidence = some result.2 ∧ (result.2.status = .cascadeComplete ∨ result.2.status = .certificateIssued) := by
  rw [CertificateSigner.assertReady, bind_eq_ok_iff]
  simp only [bind_eq_ok_iff, assertKeyShredded_ok_iff, assertCascadeComplete_ok_iff]
  constructor
  · rintro ⟨status, hk, found, hr, he⟩
    obtain rfl := Except.ok.inj he
    exact ⟨hk, hr⟩
  · rintro ⟨hk, hr⟩
    exact ⟨result.1, hk, result.2, hr, rfl⟩

def World.storedCertificate (d : Deployment) (request : DeletionRequest) (w : World) : Option StoredCertificate :=
  (storedPath request).bind fun gcsPath => (w.downloadCertificate d gcsPath).toOption

lemma storedCertificate_iff : w.storedCertificate d request = some stored ↔
    ∃ gcsPath, World.storedPath request = some gcsPath ∧ w.downloadCertificate d gcsPath = .ok stored := by
  simp only [World.storedCertificate, Option.bind_eq_some_iff]
  refine exists_congr fun gcsPath => and_congr_right fun _ => ?_
  cases w.downloadCertificate d gcsPath with
  | error e => exact ⟨nofun, nofun⟩
  | ok found => exact ⟨fun h => congrArg Except.ok (Option.some.inj h), fun h => congrArg some (Except.ok.inj h)⟩

lemma issued_of_storedCertificate (h : w.storedCertificate d request = some stored) :
    request.status = .certificateIssued := by
  obtain ⟨gcsPath, hp, -⟩ := storedCertificate_iff.mp h
  by_contra hs
  rw [World.storedPath, if_neg hs] at hp
  contradiction

/-- The subject's newest completed request has this certificate stored. -/
def Certified (d : Deployment) (userId tenantId : String) (stored : StoredCertificate) (w : World) : Prop :=
  ∃ completed, NewestCompleted userId tenantId completed w ∧ w.storedCertificate d completed = some stored

lemma resign_not_chained {id : String} {certificate : Certificate} (h : w.resign onDemand userId tenantId id = .ok retrieved) :
    retrieved.certificate ≠ .chained certificate := by
  rw [World.resign, bind_eq_ok_iff] at h
  obtain ⟨claims, -, h⟩ := h
  rw [bind_eq_ok_iff] at h
  obtain ⟨signed, -, h⟩ := h
  obtain rfl := Except.ok.inj h
  exact nofun

lemma getCertificateForUser_chained_iff (hw : Keyed w) {certificate : Certificate} :
    (∃ retrieved, w.getCertificateForUser d onDemand userId tenantId = .ok retrieved ∧
      retrieved.certificate = .chained certificate) ↔
    KeyErased userId tenantId w ∧ ∃ stored, Certified d userId tenantId stored w ∧ stored.certificate = certificate := by
  simp only [World.getCertificateForUser, bind_eq_ok_iff, assertReady_ok_iff]
  constructor
  · rintro ⟨retrieved, ⟨⟨keyStatus, completed⟩, ⟨hk, hc, -⟩, h⟩, hcert⟩
    refine ⟨⟨keyStatus, hk⟩, ?_⟩
    simp only at h
    split at h
    · rename_i gcsPath hp
      obtain ⟨stored, hs, h⟩ := bind_eq_ok_iff.mp h
      obtain rfl := Except.ok.inj h
      exact ⟨stored, ⟨completed, (getLatestCompleted_iff hw).mp hc, storedCertificate_iff.mpr ⟨gcsPath, hp, hs⟩⟩,
        ServedCertificate.chained.inj hcert⟩
    · exact absurd hcert (resign_not_chained h)
  · rintro ⟨⟨keyStatus, hk⟩, stored, ⟨completed, hc, hs⟩, rfl⟩
    obtain ⟨gcsPath, hp, hs⟩ := storedCertificate_iff.mp hs
    refine ⟨stored.served, ⟨(keyStatus, completed), ⟨hk, (getLatestCompleted_iff hw).mpr hc, hc.completed.2⟩, ?_⟩, rfl⟩
    simp only [hp, hs]
    rfl

lemma getCertificateForUser_of_certified (hw : Keyed w) (hk : KeyErased userId tenantId w)
    (hc : Certified d userId tenantId stored w) :
    w.getCertificateForUser d onDemand userId tenantId = .ok stored.served := by
  obtain ⟨keyStatus, hk⟩ := hk
  obtain ⟨completed, hc, hs⟩ := hc
  obtain ⟨gcsPath, hp, hs⟩ := storedCertificate_iff.mp hs
  simp only [World.getCertificateForUser, bind_eq_ok_iff, assertReady_ok_iff]
  refine ⟨(keyStatus, completed), ⟨hk, (getLatestCompleted_iff hw).mpr hc, hc.completed.2⟩, ?_⟩
  simp only [hp, hs]
  rfl

end Retrieved

section Runs

def noSigner : OnDemand where
  ghostDataSummary := .ok []
  keyFingerprint := .ok "fingerprint"
  sign := fun _ => .error "UNAVAILABLE"

lemma keyed_reachable {guard : (vault d).Guard} {c : (vault d).Config} (hw : Keyed w)
    (hr : Reachable guard (initial w) c) : Keyed c.state :=
  ((conforms_initial hw).reachable (handlers_governs d) hr).valid

end Runs

end ChameleonVault.Deletion
