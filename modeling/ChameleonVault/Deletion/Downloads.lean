import ChameleonVault.CertificateChain.Integrity
import ChameleonVault.Deletion.Issuing

/-! Reading certificates back: by the URI of one, by its hash, and along the chain of a tenant. -/

namespace ChameleonVault.Deletion

open Collections Concurrency Interleaving Discipline Call DeletionRequestService HashChain
open CertificateChain (certificateLinks core SameEntries core_eq)
open KeyRegistry (Date truthy)

variable {path : String} {request : DeletionRequest}

section Lookup

/-- Of two issued requests, the later one; the query breaks ties by document name. -/
def issuedLater (a b : DeletionRequest) : Bool :=
  let issuedAt (request : DeletionRequest) := request.certificateIssuedAt.getD 0
  issuedAt b < issuedAt a || (issuedAt b = issuedAt a && b.deletionRequestId < a.deletionRequestId)

def lastIssued : List DeletionRequest → Option DeletionRequest
  | [] => none
  | r :: rs =>
    match lastIssued rs with
    | none => some r
    | some q => if issuedLater q r then some q else some r

def parseGcsPath (gcsPath : String) : Option (String × String) :=
  if "gs://".toList.isPrefixOf gcsPath.toList then
    let rest := gcsPath.toList.drop 5
    let bucketName := rest.takeWhile (· ≠ '/')
    let objectPath := (rest.dropWhile (· ≠ '/')).tail
    if bucketName ≠ [] ∧ objectPath ≠ [] ∧ objectPath.any isLineTerminator = false then
      some (String.ofList bucketName, String.ofList objectPath)
    else none
  else none

namespace World

-- a document without the field that the query orders by is not found
def getMostRecentCertificateIssuedForTenant (tenantId : String) (w : World) : Option DeletionRequest :=
  lastIssued <| w.requests.filter fun r =>
    r.tenantId = some tenantId ∧ r.status = .certificateIssued ∧ r.certificateIssuedAt.isSome = true

def downloadCertificate (d : Deployment) (gcsPath : String) (w : World) : Except String StoredCertificate :=
  match parseGcsPath gcsPath with
  | none => .error ("Invalid GCS path: " ++ gcsPath)
  | some (bucketName, objectPath) =>
    if bucketName = d.bucketName then
      match w.bucket.lookup objectPath with
      | some stored => .ok stored
      | none => .error "No such object"
    else .error "No such object"

def getCertificateByHash (d : Deployment) (certificateHash : String) (w : World) :
    Except String (Option StoredCertificate) :=
  match w.chainEntries.lookup certificateHash with
  | none => .ok none
  | some entry =>
    match truthy ((w.deletionRequests.lookup entry.deletionRequestId).bind (·.certificateGcsPath)) with
    | none => .ok none
    | some gcsPath => (w.downloadCertificate d gcsPath).map some

def lookupCertificate (d : Deployment) (w : World) (certificateHash : String) : Option Certificate :=
  match w.getCertificateByHash d certificateHash with
  | .ok found => found.map StoredCertificate.certificate
  | .error _ => none

/-- A lookup by hash is answered with that certificate, if with any. -/
def LookupsSound (d : Deployment) (w : World) : Prop :=
  ∀ certificateHash, ∃ found, w.getCertificateByHash d certificateHash = .ok found ∧
    ∀ stored, found = some stored → d.sha256 stored.certificate = certificateHash

/-- From the latest certificate of a tenant the lookups go through to its first one. -/
def ChainWalkable (d : Deployment) (tenantId : String) (w : World) : Prop :=
  ∀ request, w.getMostRecentCertificateIssuedForTenant tenantId = some request →
    ∃ gcsPath stored, request.certificateGcsPath = some gcsPath ∧ w.downloadCertificate d gcsPath = .ok stored ∧
      (certificateLinks d).walks (w.lookupCertificate d) stored.certificate.chainSequence stored.certificate = true

end World

lemma mem_of_lastIssued {requests : List DeletionRequest} (h : lastIssued requests = some request) :
    request ∈ requests := by
  induction requests generalizing request with
  | nil => contradiction
  | cons r rs ih =>
    simp only [lastIssued] at h
    cases hl : lastIssued rs with
    | none =>
      rw [hl] at h
      exact Option.some.inj h ▸ List.mem_cons_self
    | some q =>
      rw [hl] at h
      simp only at h
      split at h
      · exact Option.some.inj h ▸ List.mem_cons_of_mem r (ih hl)
      · exact Option.some.inj h ▸ List.mem_cons_self

lemma parseGcsPath_uri {bucketName : String} (hb : bucketName ≠ "") (hs : '/' ∉ bucketName.toList) :
    parseGcsPath ("gs://" ++ bucketName ++ "/" ++ path) =
      if OneLine path then some (bucketName, path) else none := by
  have hall : ∀ c ∈ bucketName.toList, (c ≠ '/' : Bool) = true := by
    intro c hc
    simp only [ne_eq, decide_not, Bool.not_eq_eq_eq_not, Bool.not_true, decide_eq_false_iff_not]
    rintro rfl
    exact hs hc
  have hl : ("gs://" ++ bucketName ++ "/" ++ path).toList =
      "gs://".toList ++ (bucketName.toList ++ '/' :: path.toList) := by
    simp [String.toList_append]
  have hd : ("gs://".toList ++ (bucketName.toList ++ '/' :: path.toList)).drop 5 =
      bucketName.toList ++ '/' :: path.toList := rfl
  have ht : (bucketName.toList ++ '/' :: path.toList).takeWhile (· ≠ '/') = bucketName.toList := by
    rw [List.takeWhile_append_of_pos hall]
    simp
  have hr : (bucketName.toList ++ '/' :: path.toList).dropWhile (· ≠ '/') = '/' :: path.toList := by
    rw [List.dropWhile_append_of_pos hall]
    simp
  have hp : "gs://".toList.isPrefixOf ("gs://".toList ++ (bucketName.toList ++ '/' :: path.toList)) = true :=
    List.isPrefixOf_iff_prefix.mpr (List.prefix_append _ _)
  have hne : bucketName.toList ≠ [] := by simpa using hb
  simp only [parseGcsPath, hl, hd, ht, hr, hp, if_true, List.tail_cons, String.ofList_toList, hne, ne_eq,
    not_false_eq_true, true_and]
  by_cases h : OneLine path
  · have hp' : path.toList ≠ [] := by simpa using h.1
    rw [if_pos h, if_pos ⟨hp', h.2⟩]
  · rw [if_neg h, if_neg]
    rintro ⟨hp', ha⟩
    exact h ⟨by simpa using hp', ha⟩

end Lookup

end ChameleonVault.Deletion
