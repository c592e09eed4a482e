import ChameleonVault.Deletion.Footprint

/-! What a call of the deletion service may do next, given what it has read and claimed. -/

namespace ChameleonVault.Deletion

open Concurrency Discipline Call DeletionRequestService
open KeyRegistry (Date)

/-- What one call knows: the request as it read it, the claim whose side effect is under way,
whether its plan was empty, and the request as the signer read it. -/
structure Knowledge where
  request : Option DeletionRequest := none
  claim : Option Status := none
  emptyPlan : Bool := false
  evidence : Option DeletionRequest := none

def Knowledge.concerns (q : Knowledge) (id : String) (request : DeletionRequest) : Prop :=
  q.request = some request ∧ request.deletionRequestId = id

def isExclusive (newStatus : Status) : Bool := newStatus ∈ [.keyDestroyed, .certificateIssued]

def Knowledge.claimed (newStatus : Status) (q : Knowledge) : Knowledge :=
  if isExclusive newStatus then { q with claim := some newStatus, evidence := none } else q

/-- The unconditional status writes: the two rollbacks, the end of a cascade, the shortcut. -/
inductive MayWrite (q : Knowledge) (request : DeletionRequest) : Status → Prop
  | keyRollback : q.claim = some .keyDestroyed → request.status = .shredRequested →
      MayWrite q request .shredRequested
  | certificateRollback : q.claim = some .certificateIssued → request.status = .cascadeComplete →
      MayWrite q request .cascadeComplete
  | finished : q.claim = none → request.status = .cascadePending ∨ request.status = .cascadeInProgress →
      MayWrite q request .cascadeComplete
  | shortcut : q.claim = none → q.emptyPlan = true →
      isValidTransition request.status .cascadePending = true ∨
        isValidTransition request.status .cascadeInProgress = true →
      MayWrite q request .cascadeComplete

def DerivedFrom (request : DeletionRequest) (claims : Claims) : Prop :=
  claims.lineageSummary = lineageSummary request.janitorWipes ∧
  (∃ now manualEntries, claims.sourceRedactionExceptions =
    sourceRedactionExceptions now request.janitorWipes manualEntries) ∧
  (∃ known, claims.lineageCoverage = lineageCoverage request.janitorWipes known)

def handlers : Discipline Op (fun op => Except String op.Res) Knowledge where
  start := {}
  allowed q
    -- no handler lets go of a claim unless its side effect went through or was rolled back
    | .getDeletionRequest _ => q.claim = none
    | .claimTransition id allowedFromStatuses newStatus => ∃ request, q.concerns id request ∧ q.claim = none ∧
        allowedFromStatuses = [request.status] ∧ isValidTransition request.status newStatus = true
    | .updateDeletionRequestStatus id newStatus => ∃ request, q.concerns id request ∧ MayWrite q request newStatus
    | .shredKeyForUser userId tenantId id => ∃ request, q.concerns id request ∧
        q.claim = some .keyDestroyed ∧ userId = request.userId ∧ tenantId = request.tenant
    | .updateJanitorWipeStatus _ _ status _ => status = .succeeded ∨ status = .failed
    | .buildPlan id _ _ => ∃ request, q.concerns id request ∧ q.claim = none
    | .getGhostDataFindings id _ _ => ∃ request, q.concerns id request ∧ q.claim = some .certificateIssued
    | .signerDeletionRequest id => ∃ request, q.concerns id request ∧ q.claim = some .certificateIssued
    | .uploadCertificate _ id chained _ _ _ => ∃ request, q.concerns id request ∧
        q.claim = some .certificateIssued ∧
        ∃ evidence, q.evidence = some evidence ∧ DerivedFrom evidence chained.certificate.claims
    | _ => True
  next q
    | .getDeletionRequest _, .ok request => { request := request }
    | .claimTransition _ _ newStatus, .ok .claimed => q.claimed newStatus
    | .shredKeyForUser _ _ _, .ok _ => { q with claim := none }
    | .updateDeletionRequestStatus _ _, _ => { q with claim := none }
    | .buildPlan _ _ _, .ok plan => { q with emptyPlan := plan.isEmpty }
    | .signerDeletionRequest _, .ok request => { q with evidence := request }
    | .uploadCertificate _ _ _ _ _ _, .ok _ => { q with claim := none }
    | _, _ => q
  possible
    | .getDeletionRequest id, .ok (some request) => request.deletionRequestId = id
    | .signerDeletionRequest id, .ok (some request) => request.deletionRequestId = id
    | .appendToChain _ _ claims, .ok chained => chained.certificate.claims = claims
    | _, _ => True

section Work

abbrev Unclaimed (op : Op) : Prop := handlers.Neutral op

lemma unclaimed_of_work (op : Op) (h : Work op) : Unclaimed op := by
  intro q
  cases op <;> first | contradiction | exact ⟨trivial, fun _ => rfl⟩

lemma recordEvent_unclaimed (event : LineageEvent) : (recordEvent event : Service Unit).run.Uses Unclaimed :=
  (recordEvent_work event).mono unclaimed_of_work

lemma createCleanupPlan_unclaimed (userId tenantId : String) :
    (JanitorService.createCleanupPlan userId tenantId : Service (List JanitorTask)).run.Uses Unclaimed :=
  (createCleanupPlan_work userId tenantId).mono unclaimed_of_work

end Work

section Issuance

variable {id : String} {request : DeletionRequest}

def Issuing (id : String) (request : DeletionRequest) (q : Knowledge) : Prop :=
  q.concerns id request ∧ q.claim = some .certificateIssued

lemma claimsFor_derivedFrom {userId tenantId : String} {evidence : DeletionRequest}
    {keyStatus : KeyRegistry.KeyStatus} {manualEntries : List PiiRegistryEntry}
    {ghostDataSummary : List GhostDataSummary} {known : List String} {keyFingerprint : String}
    {checkedAt issuedAt : Date} :
    DerivedFrom evidence (claimsFor userId tenantId evidence keyStatus manualEntries ghostDataSummary known
      keyFingerprint checkedAt issuedAt) :=
  ⟨rfl, ⟨checkedAt, manualEntries, rfl⟩, ⟨known, rfl⟩⟩

lemma assertCascadeComplete_request {userId : String} {evidence : Option DeletionRequest} {r : DeletionRequest}
    (h : CertificateSigner.assertCascadeComplete userId evidence = .ok r) : evidence = some r := by
  cases evidence with
  | none => contradiction
  | some request =>
    simp only [CertificateSigner.assertCascadeComplete] at h
    split at h
    · exact congrArg some (Except.ok.inj h)
    · contradiction

lemma assertReady_request {userId : String} {keyStatus : Option KeyRegistry.KeyStatus}
    {evidence : Option DeletionRequest} {result : KeyRegistry.KeyStatus × DeletionRequest}
    (h : CertificateSigner.assertReady userId keyStatus evidence = .ok result) : evidence = some result.2 := by
  simp only [CertificateSigner.assertReady, bind, Except.bind] at h
  cases hk : CertificateSigner.assertKeyShredded userId keyStatus with
  | error e => simp [hk] at h
  | ok status =>
    cases hr : CertificateSigner.assertCascadeComplete userId evidence with
    | error e => simp [hk, hr] at h
    | ok r =>
      simp only [hk, hr] at h
      obtain rfl := Except.ok.inj h
      exact assertCascadeComplete_request hr

lemma generateClaims_keeps {q : Knowledge} (hq : Issuing id request q) (userId tenantId : String)
    (ghostDataSummary : List GhostDataSummary) (known : List String) :
    handlers.Keeps q (CertificateSigner.generateClaims id userId tenantId ghostDataSummary known)
      (fun claims q => Issuing id request q ∧ ∃ evidence, q.evidence = some evidence ∧ DerivedFrom evidence claims)
      (fun _ q => Issuing id request q) := by
  apply Keeps.bind
  refine Keeps.perform trivial (fun keyStatus _ => ?_) (fun _ _ => hq)
  apply Keeps.bind
  refine Keeps.perform ⟨request, hq⟩ (fun evidence _ => ?_) (fun _ _ => hq)
  have hq' : Issuing id request { q with evidence := evidence } := hq
  split
  · exact Keeps.throw hq'
  · rename_i keyStatus r hr
    have he : evidence = some r := assertReady_request hr
    apply Keeps.bind
    refine Keeps.perform trivial (fun checkedAt _ => ?_) (fun _ _ => hq')
    apply Keeps.bind
    refine Keeps.perform trivial (fun manualEntries _ => ?_) (fun _ _ => hq')
    apply Keeps.bind
    refine Keeps.perform trivial (fun issuedAt _ => ?_) (fun _ _ => hq')
    apply Keeps.bind
    refine Keeps.perform trivial (fun keyFingerprint _ => ?_) (fun _ _ => hq')
    exact Keeps.pure ⟨hq', r, he, claimsFor_derivedFrom⟩

lemma issueAndStoreCertificate_keeps {q : Knowledge} (hq : Issuing id request q) (d : Deployment)
    (userId tenantId : String) :
    handlers.Keeps q (CertificateService.issueAndStoreCertificate d userId id tenantId)
      (fun _ q => q.claim = none) (fun _ q => Issuing id request q) := by
  apply Keeps.bind
  refine Keeps.perform ⟨request, hq⟩ (fun ghostDataSummary _ => ?_) (fun _ _ => hq)
  apply Keeps.bind
  refine Keeps.mono (generateClaims_keeps hq userId tenantId ghostDataSummary registeredConnectors) ?_
    (fun _ _ h => h)
  rintro claims q ⟨hq, evidence, he, hd⟩
  apply Keeps.bind
  refine Keeps.perform trivial (fun chained hc => ?_) (fun _ _ => hq)
  apply Keeps.bind
  refine Keeps.neutral ((timestamp_work d _).mono unclaimed_of_work) (fun tsaTimestamp => ?_) (fun _ => hq)
  apply Keeps.bind
  refine Keeps.neutral ((publish_work d _ _).mono unclaimed_of_work) (fun rekorEntry => ?_) (fun _ => hq)
  have hcc : chained.certificate.claims = claims := hc
  refine Keeps.perform ⟨request, hq.1, hq.2, evidence, he, ?_⟩ (fun _ _ => rfl) (fun _ _ => hq)
  rw [hcc]
  exact hd

end Issuance

section Advance

variable {id : String} {request : DeletionRequest} {q : Knowledge}

/-- However the call ends, it holds no claim then. -/
def Settles {α : Type} (q : Knowledge) (x : Service α) : Prop :=
  handlers.Keeps q x (fun _ q => q.claim = none) (fun _ q => q.claim = none)

lemma settles_of_unclaimed {α : Type} {x : Service α} (hq : q.claim = none) (hx : x.run.Uses Unclaimed) : Settles q x :=
  .neutral hx (fun _ => hq) (fun _ => hq)

lemma claimOrLose_keeps (hq : q.concerns id request) (hc : q.claim = none) {newStatus : Status}
    (hv : isValidTransition request.status newStatus = true) :
    handlers.Keeps q (claimOrLose id request newStatus)
      (fun lost q' => q' = if lost.isNone then q.claimed newStatus else q) (fun _ q' => q' = q) := by
  apply Keeps.bind
  refine Keeps.perform ⟨request, hq, hc, rfl, hv⟩ (fun result _ => ?_) (fun _ _ => rfl)
  cases result with
  | claimed => exact Keeps.pure rfl
  | lost current => exact Keeps.pure rfl

/-- A claim that was won is settled by what the handler does next. -/
lemma settles_of_claim {newStatus : Status} {f : Option DeletionRequest → Service DeletionRequest}
    (hq : q.concerns id request) (hc : q.claim = none) (hv : isValidTransition request.status newStatus = true)
    (hlost : ∀ current, f (some current) = pure current) (hwon : Settles (q.claimed newStatus) (f none)) :
    Settles q (claimOrLose id request newStatus >>= f) := by
  apply Keeps.bind
  refine Keeps.mono (claimOrLose_keeps hq hc hv) ?_ ?_
  · rintro (_ | current) q' rfl
    · exact hwon
    · rw [hlost current]
      exact Keeps.pure hc
  · rintro _ q' rfl
    exact hc

lemma orRollback_keeps {α : Type} {effect : Service α} {ok : α → Knowledge → Prop}
    (h : handlers.Keeps q effect ok (fun _ q => q.concerns id request ∧ MayWrite q request request.status)) :
    handlers.Keeps q (orRollback id request effect) ok (fun _ q => q.claim = none) := by
  apply Keeps.tryCatch
  refine Keeps.mono h (fun _ _ h => h) ?_
  rintro err q ⟨hq, hw⟩
  apply Keeps.bind
  exact Keeps.perform ⟨request, hq, hw⟩ (fun _ _ => Keeps.throw rfl) (fun _ _ => rfl)

/-- What a handler does of its own once its side effect is done: it tells of it, and writes the fields. -/
lemma reported_unclaimed {α : Type} (event : LineageEvent) (fields : Date → UpdateFields) {reply : Date → Service α}
    (hreply : ∀ now, (reply now).run.Uses Unclaimed) :
    (do
      let now ← dateNow
      quietly (recordEvent event)
      updateDeletionRequestFields id (fields now)
      reply now : Service α).run.Uses Unclaimed := by
  refine uses_bind (uses_perform fun _ => ⟨trivial, fun _ => rfl⟩) fun now => ?_
  refine uses_bind (uses_quietly (recordEvent_unclaimed event)) fun _ => ?_
  exact uses_bind (uses_perform fun _ => ⟨trivial, fun _ => rfl⟩) fun _ => hreply now

lemma onKeyDestroyed_settles (hid : request.deletionRequestId = id) (operationId : String)
    (hv : isValidTransition request.status .keyDestroyed = true) :
    Settles { request := some request } (onKeyDestroyed id operationId request) := by
  refine settles_of_claim ⟨rfl, hid⟩ rfl hv (fun _ => rfl) ?_
  have hs : request.status = .shredRequested := eq_of_isValidTransition_keyDestroyed hv
  apply Keeps.bind
  apply orRollback_keeps
  refine Keeps.perform ⟨request, ⟨rfl, hid⟩, rfl, rfl, rfl⟩ (fun _ _ => ?_) (fun _ _ => ⟨⟨rfl, hid⟩, ?_⟩)
  · exact settles_of_unclaimed rfl (reported_unclaimed _ _ fun _ => uses_pure _)
  · rw [hs]
    exact .keyRollback rfl hs

lemma onCascadePartialFailure_settles (hid : request.deletionRequestId = id) (operationId : String)
    (failed : List String) (hv : isValidTransition request.status .cascadePartialFailure = true) :
    Settles { request := some request } (onCascadePartialFailure id operationId failed request) := by
  refine settles_of_claim ⟨rfl, hid⟩ rfl hv (fun _ => rfl) ?_
  apply settles_of_unclaimed rfl
  apply uses_bind (uses_quietly (recordEvent_unclaimed _))
  intro _
  exact uses_bind (uses_perform fun _ => ⟨trivial, fun _ => rfl⟩) (fun _ => uses_pure _)

lemma onCertificateIssued_settles (d : Deployment) (hid : request.deletionRequestId = id) (operationId : String)
    (hv : isValidTransition request.status .certificateIssued = true) :
    Settles { request := some request } (onCertificateIssued d id operationId request) := by
  refine settles_of_claim ⟨rfl, hid⟩ rfl hv (fun _ => rfl) ?_
  have hs : request.status = .cascadeComplete := eq_of_isValidTransition_certificateIssued hv
  apply Keeps.bind
  apply orRollback_keeps
  subst hid
  refine Keeps.mono (issueAndStoreCertificate_keeps ⟨⟨rfl, rfl⟩, rfl⟩ d _ _) ?_ ?_
  · intro gcsPath q hq
    exact settles_of_unclaimed hq (reported_unclaimed _ _ fun _ => uses_pure _)
  · intro _ q hq
    rw [hs]
    exact ⟨hq.1, .certificateRollback hq.2 hs⟩

lemma entering_settles (hq : q.claim = none) {newStatus : Status} {handler : DeletionRequest → Service DeletionRequest}
    (h : ∀ request, request.deletionRequestId = id → isValidTransition request.status newStatus = true →
      Settles { request := some request } (handler request)) :
    Settles q (entering id newStatus handler) := by
  apply Keeps.bind
  refine Keeps.perform hq (fun result hr => ?_) (fun _ _ => hq)
  cases result with
  | none => exact Keeps.throw rfl
  | some request =>
    simp only
    split
    · rename_i hv
      exact h request hr hv
    · exact Keeps.throw rfl

lemma advanceToCertificateIssued_settles (d : Deployment) (hq : q.claim = none) (operationId : String) :
    Settles q (advanceToCertificateIssued d id operationId) :=
  entering_settles hq fun _ hid hv => onCertificateIssued_settles d hid operationId hv

lemma advanceToPartialFailure_settles (hq : q.claim = none) (operationId : String) (failed : List String) :
    Settles q (advanceToPartialFailure id operationId failed) :=
  entering_settles hq fun _ hid hv => onCascadePartialFailure_settles hid operationId failed hv

lemma onCascadeComplete_settles (d : Deployment) (hq : q.concerns id request)
    (hw : MayWrite q request .cascadeComplete) (operationId : String) :
    Settles q (onCascadeComplete d id operationId) := by
  apply Keeps.bind
  exact Keeps.perform ⟨request, hq, hw⟩ (fun _ _ => advanceToCertificateIssued_settles d rfl operationId)
    (fun _ _ => rfl)

lemma prepareCascadeTrigger_keeps (hq : q.concerns id request) (hc : q.claim = none) :
    handlers.Keeps q (prepareCascadeTrigger id request)
      (fun trigger q => q.concerns id request ∧ q.claim = none ∧
        (trigger = .shortcutToComplete → q.emptyPlan = true)) (fun _ q => q.claim = none) := by
  apply Keeps.tryCatch
  apply Keeps.bind
  refine Keeps.neutral (createCleanupPlan_unclaimed _ _) (fun tasks => ?_) (fun _ => ?_)
  · apply Keeps.bind
    refine Keeps.perform ⟨request, hq, hc⟩ (fun plan _ => ?_) (fun _ _ => ?_)
    · split
      · rename_i he
        exact Keeps.pure ⟨hq, hc, fun _ => he⟩
      · exact Keeps.pure ⟨hq, hc, (nomatch ·)⟩
    · exact Keeps.pure ⟨hq, hc, (nomatch ·)⟩
  · exact Keeps.pure ⟨hq, hc, (nomatch ·)⟩

lemma startCascade_settles (hq : q.concerns id request) (hc : q.claim = none)
    (operationId eventType : String) {newStatus : Status} (plan : Plan) (hx : isExclusive newStatus = false)
    (hv : isValidTransition request.status newStatus = true) :
    Settles q (startCascade id operationId eventType request newStatus plan) := by
  refine settles_of_claim hq hc hv (fun _ => rfl) ?_
  have hunclaimed : (q.claimed newStatus).claim = none := by simp [Knowledge.claimed, hx, hc]
  refine settles_of_unclaimed hunclaimed (reported_unclaimed _ _ fun _ => ?_)
  exact uses_bind (uses_perform fun _ => ⟨trivial, fun _ => rfl⟩) (fun _ => uses_pure _)

lemma onCascadePending_settles (d : Deployment) (hid : request.deletionRequestId = id) (operationId : String)
    (hv : isValidTransition request.status .cascadePending = true) :
    Settles { request := some request } (onCascadePending d id operationId request) := by
  apply Keeps.bind
  refine Keeps.mono (prepareCascadeTrigger_keeps ⟨rfl, hid⟩ rfl) ?_ (fun _ _ h => h)
  rintro trigger q ⟨hq, hc, he⟩
  cases trigger with
  | shortcutToComplete =>
    exact onCascadeComplete_settles d hq (.shortcut hc (he rfl) (.inl hv)) operationId
  | planFailed error => exact advanceToPartialFailure_settles hc operationId _
  | ready plan => exact startCascade_settles hq hc operationId _ plan rfl hv

lemma onCascadeInProgress_settles (d : Deployment) (hid : request.deletionRequestId = id) (operationId : String)
    (hv : isValidTransition request.status .cascadeInProgress = true) :
    Settles { request := some request } (onCascadeInProgress d id operationId request) := by
  apply Keeps.bind
  refine Keeps.mono (prepareCascadeTrigger_keeps ⟨rfl, hid⟩ rfl) ?_ (fun _ _ h => h)
  rintro trigger q ⟨hq, hc, he⟩
  cases trigger with
  | shortcutToComplete =>
    exact onCascadeComplete_settles d hq (.shortcut hc (he rfl) (.inr hv)) operationId
  | planFailed error => exact Keeps.pure hc
  | ready plan => exact startCascade_settles hq hc operationId _ plan rfl hv

lemma advanceRequest_settles (d : Deployment) (hq : q.claim = none) (id : String) (newStatus : Status)
    (operationId : String) (failed : List String) : Settles q (advanceRequest d id newStatus operationId failed) := by
  refine entering_settles hq fun request hid hv => ?_
  cases newStatus with
  | shredRequested => simp [not_isValidTransition_shredRequested] at hv
  | keyDestroyed => exact onKeyDestroyed_settles hid operationId hv
  | cascadePending => exact onCascadePending_settles d hid operationId hv
  | cascadeInProgress => exact onCascadeInProgress_settles d hid operationId hv
  | cascadeComplete =>
    refine onCascadeComplete_settles d ⟨rfl, hid⟩ (.finished rfl ?_) operationId
    cases hs : request.status <;> simp [hs, isValidTransition, transitions] at hv ⊢
  | cascadePartialFailure => exact onCascadePartialFailure_settles hid operationId failed hv
  | certificateIssued => exact onCertificateIssued_settles d hid operationId hv

end Advance

section Jobs

variable {q : Knowledge}

lemma recordWipe_unclaimed (id : String) (result : JanitorTask) :
    (DeletionRequestService.recordWipe id result).run.Uses Unclaimed := by
  apply uses_quietly
  refine uses_perform fun _ => ⟨?_, fun _ => rfl⟩
  by_cases h : result.status = .complete
  · exact .inl (by simp [h])
  · exact .inr (by simp [h])

lemma recordStatement_unclaimed (id suffix : String) (result : SourceRedactionResult) :
    (recordStatement id suffix result).run.Uses Unclaimed := by
  apply uses_quietly
  refine uses_perform fun _ => ⟨?_, fun _ => rfl⟩
  by_cases h : result.success = true
  · exact .inl (by simp [h])
  · exact .inr (by simp [h])

lemma finishCascade_settles (d : Deployment) (hq : q.claim = none) (id operationId : String) (results : CascadeResults) :
    Settles q (finishCascade d id operationId results) := by
  apply Keeps.bind
  refine Keeps.neutral (uses_each (recordWipe_unclaimed id) _) (fun _ => ?_) (fun _ => hq)
  apply Keeps.bind
  refine Keeps.neutral (uses_each (recordStatement_unclaimed id _) _) (fun _ => ?_) (fun _ => hq)
  apply Keeps.bind
  refine Keeps.neutral (uses_each (recordStatement_unclaimed id _) _) (fun _ => ?_) (fun _ => hq)
  apply Keeps.bind
  exact Keeps.mono (advanceRequest_settles d hq id _ operationId _) (fun _ _ h => Keeps.pure h) (fun _ _ h => h)

lemma recoverCascade_settles (d : Deployment) (hq : q.claim = none) (id operationId err : String) :
    Settles q (recoverCascade d id operationId err) := by
  apply Keeps.tryCatch
  apply Keeps.bind
  exact Keeps.mono (advanceRequest_settles d hq id _ operationId _) (fun _ _ h => Keeps.pure h)
    (fun _ _ h => Keeps.pure h)

lemma ignore_settles {α : Type} {x : Service α} (h : Settles q x) :
    handlers.Follows q (DeletionRequestService.ignore x) (fun _ q => q.claim = none) := by
  refine Follows.bind (Follows.mono h ?_)
  rintro (_ | _) q hq
  · exact hq
  · exact hq

lemma cascade_settles (d : Deployment) (id : String) (request : DeletionRequest) (tenantId operationId : String)
    (redactionResources encryptedCopyResources : List PiiRegistryEntry) :
    handlers.Follows handlers.start
      (cascade d id request tenantId operationId redactionResources encryptedCopyResources)
      (fun _ q => q.claim = none) := by
  refine Follows.awaitAll ((processCleanup_work _ _ _).mono unclaimed_of_work) ?_ (fun janitorResults r => ?_)
    (fun err => ?_)
  · exact Prog.Uses.awaitAll ((redactUserInDeclaredSources_work _ _ _ _).mono unclaimed_of_work)
      ((deleteUserFromEncryptedCopies_work _ _ _ _).mono unclaimed_of_work) (fun _ _ => trivial) (fun _ => trivial)
  · apply ignore_settles
    apply Keeps.tryCatch
    exact Keeps.mono (finishCascade_settles d rfl id operationId _) (fun _ _ h => h)
      (fun err q hq => recoverCascade_settles d hq id operationId err)
  · exact ignore_settles (recoverCascade_settles d rfl id operationId err)

lemma createRequest_settles (hq : q.claim = none) (userId operationId tenantId : String) (requestedBy : Option String) :
    Settles q (DeletionRequestService.createRequest userId operationId tenantId requestedBy) := by
  apply settles_of_unclaimed hq
  apply uses_bind (uses_perform fun _ => ⟨trivial, fun _ => rfl⟩)
  intro existingRequest
  cases existingRequest with
  | some request => exact uses_pure _
  | none =>
    apply uses_bind (uses_perform fun _ => ⟨trivial, fun _ => rfl⟩)
    intro request
    exact uses_bind (uses_quietly (recordEvent_unclaimed _)) (fun _ => uses_pure _)

lemma body_settles (d : Deployment) (j : Job) :
    handlers.Follows handlers.start (j.body d) (fun _ q => q.claim = none) := by
  cases j with
  | createRequest userId operationId tenantId requestedBy =>
    exact ignore_settles (createRequest_settles rfl userId operationId tenantId requestedBy)
  | advanceRequest id newStatus operationId =>
    exact ignore_settles (advanceRequest_settles d rfl id newStatus operationId [])
  | cascade id request tenantId operationId redactionResources encryptedCopyResources =>
    exact cascade_settles d id request tenantId operationId redactionResources encryptedCopyResources

end Jobs

end ChameleonVault.Deletion
