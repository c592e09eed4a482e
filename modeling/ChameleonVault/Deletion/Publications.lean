import ChameleonVault.Deletion.Downloads

/-! What a call has chained and stored of a certificate, and when its steps leave every certificate retrievable. -/

namespace ChameleonVault.Deletion

open Collections Concurrency Interleaving Discipline Call DeletionRequestService HashChain
open CertificateChain (certificateLinks core SameEntries core_eq)
open KeyRegistry (Date truthy)

variable {d : Deployment} {w w' : World} {log : (vault d).Log} {a : (vault d).Action}
  {tenantId id path uri hash : String} {request : DeletionRequest} {certificate : Certificate}
  {entry : CertificateChainEntry}

section Publishing

/-- What a call has chained, and under which URI it has stored a certificate. -/
structure Publication where
  chained : Option (String × Certificate) := none
  stored : Option (String × String) := none

def publishing : Discipline Op (fun op => Except String op.Res) Publication where
  start := {}
  allowed q
    | .uploadCertificate _ id chained _ _ _ => q.chained = some (id, chained.certificate)
    | .updateDeletionRequestFields id fields =>
        fields.certificateIssuedAt.isSome = fields.certificateGcsPath.isSome ∧
          ∀ uri, fields.certificateGcsPath = some uri → q.stored = some (id, uri)
    | _ => True
  next q
    | .appendToChain _ id _, .ok chained => { q with chained := some (id, chained.certificate) }
    | .uploadCertificate _ id _ _ _ _, .ok uri => { q with stored := some (id, uri) }
    | _, _ => q
  possible
    | .getDeletionRequest id, .ok (some request) => request.deletionRequestId = id
    | _, _ => True

lemma publishing_of_routine (op : Op) (h : Routine op) : publishing.Neutral op := by
  intro q
  cases op
  case updateDeletionRequestFields id fields =>
    obtain ⟨hissued, hpath⟩ : fields.certificateIssuedAt = none ∧ fields.certificateGcsPath = none :=
      of_decide_eq_true h
    refine ⟨⟨?_, fun uri hu => ?_⟩, fun _ => rfl⟩
    · rw [hissued, hpath]
      rfl
    · rw [hpath] at hu
      contradiction
  all_goals first | contradiction | exact ⟨trivial, fun _ => rfl⟩

lemma publishing_of_work (op : Op) (h : Work op) : publishing.Neutral op :=
  publishing_of_routine op (routine_of_work h)

lemma issueAndStoreCertificate_publishing (q : Publication) (userId : String) :
    publishing.Keeps q (CertificateService.issueAndStoreCertificate d userId id tenantId)
      (fun uri q => q.stored = some (id, uri)) (fun _ _ => True) := by
  apply Keeps.bind
  refine Keeps.perform trivial (fun ghostDataSummary _ => ?_) (fun _ _ => trivial)
  apply Keeps.bind
  refine .neutral ((generateClaims_routine _ _ _ _).mono publishing_of_routine) (fun claims => ?_) (fun _ => trivial)
  apply Keeps.bind
  refine Keeps.perform trivial (fun chained _ => ?_) (fun _ _ => trivial)
  apply Keeps.bind
  refine .neutral ((timestamp_work d _).mono publishing_of_work) (fun tsaTimestamp => ?_) (fun _ => trivial)
  apply Keeps.bind
  refine .neutral ((publish_work d _ _).mono publishing_of_work) (fun rekorEntry => ?_) (fun _ => trivial)
  exact Keeps.perform rfl (fun _ _ => rfl) (fun _ _ => trivial)

lemma onCertificateIssued_publishing (q : Publication) (hid : request.deletionRequestId = id) (operationId : String) :
    publishing.Keeps q (onCertificateIssued d id operationId request) (fun _ _ => True) (fun _ _ => True) := by
  apply Keeps.bind
  refine .neutral ((claimOrLose_routine _).mono publishing_of_routine) (fun lost => ?_) (fun _ => trivial)
  cases lost with
  | some current => exact Keeps.pure trivial
  | none =>
    apply Keeps.bind
    suffices h : publishing.Keeps q (orRollback id request (CertificateService.issueAndStoreCertificate d
        request.userId request.deletionRequestId request.tenant)) (fun uri q => q.stored = some (id, uri))
        (fun _ _ => True) from ?_
    · refine Keeps.mono h (fun gcsPath q hq => ?_) (fun _ _ _ => trivial)
      apply Keeps.bind
      refine Keeps.perform trivial (fun now _ => ?_) (fun _ _ => trivial)
      apply Keeps.bind
      refine .neutral ((uses_quietly (recordEvent_work _)).mono publishing_of_work) (fun _ => ?_) (fun _ => trivial)
      apply Keeps.bind
      refine Keeps.perform ⟨rfl, fun uri hu => ?_⟩ (fun _ _ => Keeps.pure trivial) (fun _ _ => trivial)
      rw [← Option.some.inj hu]
      exact hq
    · rw [hid]
      apply Keeps.tryCatch
      refine Keeps.mono (issueAndStoreCertificate_publishing q _) (fun _ _ h => h) (fun err q _ => ?_)
      apply Keeps.bind
      exact Keeps.perform trivial (fun _ _ => Keeps.throw trivial) (fun _ _ => trivial)

lemma publishing_issues : Issues publishing d where
  routine := publishing_of_routine
  creation op h := by
    intro q
    cases op <;> first | contradiction | exact ⟨trivial, fun _ => rfl⟩
  record op h := by
    intro q
    cases op <;> first | contradiction | exact ⟨trivial, fun _ => rfl⟩
  issue q id operationId := by
    apply Keeps.bind
    refine Keeps.perform trivial (fun request hr => ?_) (fun _ _ => trivial)
    cases request with
    | none => exact Keeps.throw trivial
    | some request =>
      simp only
      split
      · exact onCertificateIssued_publishing q hr operationId
      · exact Keeps.throw trivial

lemma publishing_governs (d : Deployment) : Governs (S := vault d) publishing Keyed where
  body := publishing_issues.body
  exec {op _ _ _ reply} hw he := by
    refine ⟨?_, hw.exec he⟩
    cases op
    case getDeletionRequest id =>
      have hpossible : handlers.possible (.getDeletionRequest id) reply := exec_possible (d := d) hw he
      rcases reply with e | (_ | request)
      · trivial
      · trivial
      · exact hpossible
    all_goals trivial
  env hw he := hw.of_eq (env_requests he)

end Publishing

section Guard

def isStored (id : String) (w : World) : Bool :=
  ((w.deletionRequests.lookup id).bind (·.certificateGcsPath)).isSome

def hasEntry (id : String) (w : World) : Bool := w.chainEntries.entries.any fun e => e.2.deletionRequestId = id

/-- Whatever comes before the request in the chain has its certificate recorded. -/
def precedingStored (id : String) (w : World) : Bool :=
  w.chainEntries.entries.all fun e => e.2.deletionRequestId ≠ id || e.2.previousHash.all fun hash =>
    (w.chainEntries.lookup hash).any fun previous => isStored previous.deletionRequestId w

def Outcome.signature : Outcome → Option (String × String)
  | .done (.signed keyVersion signature) => some (keyVersion, signature)
  | .unconfirmed (.signed keyVersion signature) => some (keyVersion, signature)
  | _ => none

def appendsFresh (d : Deployment) (w : World) : (vault d).Entry → Bool
  | .act ⟨_, .appendToChain tenantId id claims, choice, _⟩ => choice.signature.all fun (keyVersion, signature) =>
    let chained := (w.appendToChain d tenantId id claims keyVersion signature).1
    !hasEntry id w && (w.chainEntries.lookup chained.certificateHash).isNone
  | _ => true

def uploadsApart (d : Deployment) (w : World) : (vault d).Entry → Bool
  | .act ⟨_, .uploadCertificate userId id chained tenantId tsaTimestamp rekorEntry, choice, reply⟩ =>
    let path := World.certPath d tenantId id w.clock
    !(Op.uploadCertificate userId id chained tenantId tsaTimestamp rekorEntry).tookEffect choice reply
      || decide (OneLine path) && (w.bucket.lookup path).all fun stored => stored.deletionRequestId = id
  | _ => true

def recordsInOrder (w : World) : (vault d).Entry → Bool
  | .act ⟨_, .updateDeletionRequestFields id fields, choice, reply⟩ =>
    !(Op.updateDeletionRequestFields id fields).tookEffect choice reply || fields.certificateGcsPath.isNone
      || precedingStored id w
  | _ => true

/-- A request is chained once, with a new hash; its certificate is uploaded where it can be read
back and no other one is; and its path is recorded after those of the requests before it. -/
def retrievable : (vault d).Guard := fun w _ e =>
  appendsFresh d w e = true ∧ uploadsApart d w e = true ∧ recordsInOrder w e = true

instance : ∀ w log e, Decidable (@retrievable d w log e) := fun _ _ _ => inferInstanceAs (Decidable (_ ∧ _))

end Guard

end ChameleonVault.Deletion
