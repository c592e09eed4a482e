import ChameleonVault.Deletion.Service

/-! Which operations the handlers of the deletion service can issue at all. -/

namespace ChameleonVault.Deletion

open Concurrency Prog Discipline Call DeletionRequestService

/-- Operations that neither read nor write a request or the chain's certificates. -/
def Op.isWork : Op → Bool
  | .getKeyStatus _ _ => true
  | .wipe _ _ _ _ => true
  | .runQuery _ _ _ => true
  | .recordEvent _ => true
  | .publishFailedWipe _ _ _ => true
  | .requestTimestamp _ => true
  | .recordTsaTimestamp _ _ => true
  | .publishCertificateHash _ _ => true
  | .recordRekorEntry _ _ => true
  | _ => false

def Op.isRoutine : Op → Bool
  | .getActiveDeletionRequestForUser _ _ => false
  | .createDeletionRequest _ _ _ _ => false
  | .updateDeletionRequestFields _ fields => fields.certificateIssuedAt = none ∧ fields.certificateGcsPath = none
  | .updateJanitorWipeStatus _ _ _ _ => false
  | .appendToChain _ _ _ => false
  | .uploadCertificate _ _ _ _ _ _ => false
  | _ => true

def Op.isCreation : Op → Bool
  | .getActiveDeletionRequestForUser _ _ => true
  | .createDeletionRequest _ _ _ _ => true
  | _ => false

def Op.isRecord : Op → Bool
  | .updateJanitorWipeStatus _ _ _ _ => true
  | _ => false

abbrev Work (op : Op) : Prop := op.isWork = true
abbrev Routine (op : Op) : Prop := op.isRoutine = true
abbrev Advancing (op : Op) : Prop := op.isCreation = false
/-- What the advance of a request may issue: it neither creates one nor records an outcome. -/
abbrev Progressing (op : Op) : Prop := op.isCreation = false ∧ op.isRecord = false

lemma routine_of_work {op : Op} (h : Work op) : Routine op := by
  cases op <;> first | rfl | contradiction

lemma progressing_of_routine {op : Op} (h : Routine op) : Progressing op := by
  cases op <;> first | exact ⟨rfl, rfl⟩ | contradiction

lemma advancing_of_work {op : Op} (h : Work op) : Advancing op := (progressing_of_routine (routine_of_work h)).1

section Cascade

lemma recordEvent_work (event : LineageEvent) : (recordEvent event : Service Unit).run.Uses Work := uses_perform rfl

lemma createCleanupPlan_work (userId tenantId : String) :
    (JanitorService.createCleanupPlan userId tenantId : Service (List JanitorTask)).run.Uses Work :=
  uses_bind (uses_perform rfl) (fun _ => uses_pure _)

lemma wipeAttempts_work (id userId tenantId destination : String) (left attempts : ℕ) (lastError : String) :
    (JanitorService.wipeAttempts id userId tenantId destination left attempts lastError :
      Service JanitorService.WipeOutcome).run.Uses Work := by
  induction left generalizing attempts lastError with
  | zero => exact uses_pure _
  | succ left ih =>
    apply uses_bind (uses_quietly (recordEvent_work _))
    intro _
    apply uses_bind
    · exact uses_tryCatch (uses_perform rfl) (fun _ => uses_bind (uses_orThrow _) fun _ => uses_pure _)
    · intro response
      split
      · exact uses_pure _
      · dsimp only
        split
        · exact ih _ _
        · exact uses_pure _

lemma cleanup_work (id userId tenantId : String) (task : JanitorTask) :
    (JanitorService.cleanup id userId tenantId task : Service JanitorTask).run.Uses Work := by
  rw [JanitorService.cleanup]
  split
  · apply uses_bind (wipeAttempts_work _ _ _ _ _ _ _)
    intro outcome
    apply uses_bind (uses_quietly (recordEvent_work _))
    intro _
    split
    · exact uses_pure _
    · apply uses_bind
      · exact uses_tryCatch (uses_perform rfl) (fun _ => uses_bind (uses_orThrow _) fun _ => uses_pure _)
      · exact fun _ => uses_pure _
  · exact uses_pure _

lemma processCleanup_work (id userId tenantId : String) :
    (JanitorService.processCleanup id userId tenantId : Service (List JanitorTask)).run.Uses Work :=
  uses_bind (createCleanupPlan_work userId tenantId) (fun tasks => uses_each (cleanup_work id userId tenantId) tasks)

lemma runStatement_work (id suffix : String) (query : PiiRegistryEntry → Except String Query)
    (resource : PiiRegistryEntry) : (SourceRedactionService.runStatement id suffix query resource).run.Uses Work := by
  rw [SourceRedactionService.runStatement]
  split
  · exact uses_perform rfl
  · exact uses_throw _

lemma resultOf_work {statement : PiiRegistryEntry → Service ℕ} (h : ∀ resource, (statement resource).run.Uses Work)
    (resource : PiiRegistryEntry) : (SourceRedactionService.resultOf statement resource).run.Uses Work :=
  uses_tryCatch (uses_bind (h resource) (fun _ => uses_pure _)) (fun _ => uses_pure _)

lemma redactUserInDeclaredSources_work (id userId tenantId : String) (resources : List PiiRegistryEntry) :
    (SourceRedactionService.redactUserInDeclaredSources id userId tenantId resources).run.Uses Work :=
  uses_each (resultOf_work fun resource => runStatement_work _ _ _ resource) resources

lemma deleteUserFromEncryptedCopies_work (id userId tenantId : String) (resources : List PiiRegistryEntry) :
    (SourceRedactionService.deleteUserFromEncryptedCopies id userId tenantId resources).run.Uses Work :=
  uses_each (resultOf_work fun resource => runStatement_work _ _ _ resource) resources

lemma timestamp_work (d : Deployment) (hash : String) : (CertificateService.timestamp d hash).run.Uses Work := by
  rw [CertificateService.timestamp]
  split
  · refine uses_bind (uses_perform rfl) ?_
    intro info
    exact uses_bind (uses_quietly (uses_perform rfl)) (fun _ => uses_pure _)
  · exact uses_pure _

lemma publish_work (d : Deployment) (hash : String) (previousHash : Option String) :
    (CertificateService.publish d hash previousHash).run.Uses Work := by
  rw [CertificateService.publish]
  split
  · refine uses_bind (uses_perform rfl) ?_
    intro info
    exact uses_bind (uses_quietly (uses_perform rfl)) (fun _ => uses_pure _)
  · exact uses_pure _

end Cascade

section Advance

variable {id : String} {request : DeletionRequest}

lemma recordEvent_routine (event : LineageEvent) : (quietly (recordEvent event : Service Unit)).run.Uses Routine :=
  uses_quietly (uses_perform rfl)

lemma generateClaims_routine (userId tenantId : String) (ghostDataSummary : List GhostDataSummary) (known : List String) :
    (CertificateSigner.generateClaims id userId tenantId ghostDataSummary known).run.Uses Routine := by
  refine uses_bind (uses_perform rfl) ?_
  intro keyStatus
  refine uses_bind (uses_perform rfl) ?_
  intro evidence
  split
  · exact uses_throw _
  · refine uses_bind (uses_perform rfl) ?_
    intro checkedAt
    refine uses_bind (uses_perform rfl) ?_
    intro manualEntries
    refine uses_bind (uses_perform rfl) ?_
    intro issuedAt
    exact uses_bind (uses_perform rfl) (fun _ => uses_pure _)

lemma claimOrLose_uses {P : Op → Prop} {newStatus : Status} (h : P (.claimTransition id [request.status] newStatus)) :
    (claimOrLose id request newStatus).run.Uses P := by
  refine uses_bind (uses_perform h) ?_
  intro result
  cases result <;> exact uses_pure _

lemma claimOrLose_routine (newStatus : Status) : (claimOrLose id request newStatus).run.Uses Routine :=
  claimOrLose_uses rfl

lemma onKeyDestroyed_routine (operationId : String) : (onKeyDestroyed id operationId request).run.Uses Routine := by
  apply uses_bind (claimOrLose_routine _)
  intro lost
  cases lost with
  | some current => exact uses_pure _
  | none =>
    apply uses_bind
    · refine uses_tryCatch (uses_perform rfl) (fun err => ?_)
      exact uses_bind (uses_perform rfl) (fun _ => uses_throw _)
    · intro _
      refine uses_bind (uses_perform rfl) ?_
      intro now
      apply uses_bind (recordEvent_routine _)
      intro _
      exact uses_bind (uses_perform rfl) (fun _ => uses_pure _)

lemma prepareCascadeTrigger_routine : (prepareCascadeTrigger id request).run.Uses Routine := by
  refine uses_tryCatch ?_ (fun _ => uses_pure _)
  apply uses_bind ((createCleanupPlan_work _ _).mono fun _ => routine_of_work)
  intro tasks
  refine uses_bind (uses_perform rfl) ?_
  intro plan
  split <;> exact uses_pure _

lemma startCascade_routine (operationId eventType : String) (newStatus : Status) (plan : Plan) :
    (startCascade id operationId eventType request newStatus plan).run.Uses Routine := by
  apply uses_bind (claimOrLose_routine _)
  intro lost
  cases lost with
  | some current => exact uses_pure _
  | none =>
    refine uses_bind (uses_perform rfl) ?_
    intro now
    apply uses_bind (recordEvent_routine _)
    intro _
    refine uses_bind (uses_perform rfl) ?_
    intro _
    exact uses_bind (uses_perform rfl) (fun _ => uses_pure _)

variable {P : Op → Prop}

lemma recordWipe_uses (result : JanitorTask)
    (h : ∀ status details, P (.updateJanitorWipeStatus id result.destination status details)) :
    (DeletionRequestService.recordWipe id result).run.Uses P :=
  uses_quietly (uses_perform (h _ _))

lemma recordStatement_uses (suffix : String) (result : SourceRedactionResult)
    (h : ∀ status details, P (.updateJanitorWipeStatus id (result.resourceId ++ suffix) status details)) :
    (recordStatement id suffix result).run.Uses P :=
  uses_quietly (uses_perform (h _ _))

lemma entering_uses {newStatus : Status} {handler : DeletionRequest → Service DeletionRequest}
    (hread : P (.getDeletionRequest id)) (h : ∀ request, (handler request).run.Uses P) :
    (entering id newStatus handler).run.Uses P := by
  apply uses_bind (uses_perform hread)
  intro result
  cases result with
  | none => exact uses_throw _
  | some request =>
    simp only
    split
    · exact h request
    · exact uses_throw _

lemma onCascadePartialFailure_uses (operationId : String) (failed : List String)
    (hclaim : ∀ allowedFromStatuses, P (.claimTransition id allowedFromStatuses .cascadePartialFailure))
    (hevent : ∀ event, P (.recordEvent event)) (hfields : P (.updateDeletionRequestFields id {})) :
    (onCascadePartialFailure id operationId failed request).run.Uses P := by
  apply uses_bind (claimOrLose_uses (hclaim _))
  intro lost
  cases lost with
  | some current => exact uses_pure _
  | none =>
    apply uses_bind (uses_quietly (uses_perform (hevent _)))
    intro _
    exact uses_bind (uses_perform hfields) (fun _ => uses_pure _)

lemma advanceToPartialFailure_uses (operationId : String) (failed : List String) (hread : P (.getDeletionRequest id))
    (hclaim : ∀ allowedFromStatuses, P (.claimTransition id allowedFromStatuses .cascadePartialFailure))
    (hevent : ∀ event, P (.recordEvent event)) (hfields : P (.updateDeletionRequestFields id {})) :
    (advanceToPartialFailure id operationId failed).run.Uses P :=
  entering_uses hread fun _ => onCascadePartialFailure_uses operationId failed hclaim hevent hfields

lemma onCascadePartialFailure_routine (operationId : String) (failed : List String) :
    (onCascadePartialFailure id operationId failed request).run.Uses Routine :=
  onCascadePartialFailure_uses operationId failed (fun _ => rfl) (fun _ => rfl) rfl

lemma advanceToPartialFailure_routine (operationId : String) (failed : List String) :
    (advanceToPartialFailure id operationId failed).run.Uses Routine :=
  entering_uses rfl fun _ => onCascadePartialFailure_routine operationId failed

end Advance

section Creation

variable {id : String} {request : DeletionRequest} (d : Deployment)

lemma issueAndStoreCertificate_progressing (userId tenantId : String) :
    (CertificateService.issueAndStoreCertificate d userId id tenantId).run.Uses Progressing := by
  refine uses_bind (uses_perform ⟨rfl, rfl⟩) ?_
  intro ghostDataSummary
  apply uses_bind ((generateClaims_routine _ _ _ _).mono fun _ => progressing_of_routine)
  intro claims
  refine uses_bind (uses_perform ⟨rfl, rfl⟩) ?_
  intro chained
  apply uses_bind ((timestamp_work d _).mono fun _ h => progressing_of_routine (routine_of_work h))
  intro tsaTimestamp
  apply uses_bind ((publish_work d _ _).mono fun _ h => progressing_of_routine (routine_of_work h))
  intro rekorEntry
  exact uses_perform ⟨rfl, rfl⟩

lemma onCertificateIssued_progressing (operationId : String) :
    (onCertificateIssued d id operationId request).run.Uses Progressing := by
  apply uses_bind ((claimOrLose_routine _).mono fun _ => progressing_of_routine)
  intro lost
  cases lost with
  | some current => exact uses_pure _
  | none =>
    apply uses_bind
    · refine uses_tryCatch (issueAndStoreCertificate_progressing d _ _) (fun err => ?_)
      exact uses_bind (uses_perform ⟨rfl, rfl⟩) (fun _ => uses_throw _)
    · intro gcsPath
      refine uses_bind (uses_perform ⟨rfl, rfl⟩) ?_
      intro now
      refine uses_bind (uses_quietly (uses_perform ⟨rfl, rfl⟩)) ?_
      intro _
      exact uses_bind (uses_perform ⟨rfl, rfl⟩) (fun _ => uses_pure _)

lemma onCascadeComplete_progressing (operationId : String) :
    (onCascadeComplete d id operationId).run.Uses Progressing :=
  uses_bind (uses_perform ⟨rfl, rfl⟩)
    (fun _ => entering_uses ⟨rfl, rfl⟩ fun _ => onCertificateIssued_progressing d operationId)

lemma onCascadePending_progressing (operationId : String) :
    (onCascadePending d id operationId request).run.Uses Progressing := by
  apply uses_bind (prepareCascadeTrigger_routine.mono fun _ => progressing_of_routine)
  intro trigger
  cases trigger with
  | shortcutToComplete => exact onCascadeComplete_progressing d operationId
  | planFailed error => exact (advanceToPartialFailure_routine _ _).mono fun _ => progressing_of_routine
  | ready plan => exact (startCascade_routine _ _ _ _).mono fun _ => progressing_of_routine

lemma onCascadeInProgress_progressing (operationId : String) :
    (onCascadeInProgress d id operationId request).run.Uses Progressing := by
  apply uses_bind (prepareCascadeTrigger_routine.mono fun _ => progressing_of_routine)
  intro trigger
  cases trigger with
  | shortcutToComplete => exact onCascadeComplete_progressing d operationId
  | planFailed error => exact uses_pure _
  | ready plan => exact (startCascade_routine _ _ _ _).mono fun _ => progressing_of_routine

lemma advanceRequest_progressing (id : String) (newStatus : Status) (operationId : String) (failed : List String) :
    (advanceRequest d id newStatus operationId failed).run.Uses Progressing := by
  refine entering_uses ⟨rfl, rfl⟩ fun request => ?_
  cases newStatus with
  | shredRequested => exact uses_bind (uses_perform ⟨rfl, rfl⟩) (fun _ => uses_pure _)
  | keyDestroyed => exact (onKeyDestroyed_routine _).mono fun _ => progressing_of_routine
  | cascadePending => exact onCascadePending_progressing d operationId
  | cascadeInProgress => exact onCascadeInProgress_progressing d operationId
  | cascadeComplete => exact onCascadeComplete_progressing d operationId
  | cascadePartialFailure => exact (onCascadePartialFailure_routine _ _).mono fun _ => progressing_of_routine
  | certificateIssued => exact onCertificateIssued_progressing d operationId

lemma advanceRequest_advancing (id : String) (newStatus : Status) (operationId : String) (failed : List String) :
    (advanceRequest d id newStatus operationId failed).run.Uses Advancing :=
  (advanceRequest_progressing d id newStatus operationId failed).mono fun _ h => h.1

lemma finishCascade_advancing (id operationId : String) (results : CascadeResults) :
    (finishCascade d id operationId results).run.Uses Advancing := by
  apply uses_bind (uses_each (fun result => recordWipe_uses result fun _ _ => rfl) _)
  intro _
  apply uses_bind (uses_each (fun result => recordStatement_uses _ result fun _ _ => rfl) _)
  intro _
  apply uses_bind (uses_each (fun result => recordStatement_uses _ result fun _ _ => rfl) _)
  intro _
  exact uses_bind (advanceRequest_advancing d id _ operationId _) (fun _ => uses_pure _)

lemma recoverCascade_advancing (id operationId err : String) :
    (recoverCascade d id operationId err).run.Uses Advancing :=
  uses_quietly (uses_bind (advanceRequest_advancing d id _ operationId _) (fun _ => uses_pure _))

lemma uses_ignore {α : Type} {P : Op → Prop} {x : Service α} (h : x.run.Uses P) :
    (DeletionRequestService.ignore x).Uses P :=
  Uses.bind h (fun _ => trivial)

lemma cascade_advancing (id : String) (request : DeletionRequest) (tenantId operationId : String)
    (redactionResources encryptedCopyResources : List PiiRegistryEntry) :
    (cascade d id request tenantId operationId redactionResources encryptedCopyResources).Uses Advancing := by
  have work {α : Type} {x : Service α} (h : x.run.Uses Work) : x.run.Uses Advancing :=
    h.mono fun _ => advancing_of_work
  refine Uses.awaitAll (work (processCleanup_work _ _ _)) ?_ (fun janitorResults r => ?_) (fun err => ?_)
  · exact .awaitAll (work (redactUserInDeclaredSources_work _ _ _ _))
      (work (deleteUserFromEncryptedCopies_work _ _ _ _)) (fun _ _ => trivial) (fun _ => trivial)
  · exact uses_ignore
      (uses_tryCatch (finishCascade_advancing d _ _ _) fun err => recoverCascade_advancing d _ _ err)
  · exact uses_ignore (recoverCascade_advancing d _ _ err)

end Creation

section Issues

lemma createRequest_uses {P : Op → Prop} (hc : ∀ op, op.isCreation = true → P op) (hw : ∀ op, Work op → P op)
    {userId operationId tenantId : String} {requestedBy : Option String} :
    (createRequest userId operationId tenantId requestedBy).run.Uses P := by
  refine uses_bind (uses_perform (hc _ rfl)) ?_
  intro existing
  cases existing with
  | some request => exact uses_pure _
  | none =>
    refine uses_bind (uses_perform (hc _ rfl)) ?_
    intro request
    exact uses_bind (uses_quietly ((recordEvent_work _).mono hw)) (fun _ => uses_pure _)

variable {Q : Type} {D : Discipline Op (fun op => Except String op.Res) Q} {d : Deployment} {q : Q} {id : String}
  {request : DeletionRequest}

variable (d D) in
/-- The discipline is about the issuing of certificates only, and the issuing obeys it. -/
structure Issues : Prop where
  routine (op : Op) : Routine op → D.Neutral op
  creation (op : Op) : op.isCreation = true → D.Neutral op
  record (op : Op) : op.isRecord = true → D.Neutral op
  issue (q : Q) (id operationId : String) :
    D.Keeps q (advanceToCertificateIssued d id operationId) (fun _ _ => True) (fun _ _ => True)

lemma Issues.keeps_routine {α : Type} (h : Issues D d) {x : Service α} (hx : x.run.Uses Routine) :
    D.Keeps q x (fun _ _ => True) (fun _ _ => True) :=
  .neutral (hx.mono h.routine) (fun _ => trivial) (fun _ => trivial)

lemma Issues.onCascadeComplete (h : Issues D d) (operationId : String) :
    D.Keeps q (onCascadeComplete d id operationId) (fun _ _ => True) (fun _ _ => True) := by
  have hneutral := h.routine (.updateDeletionRequestStatus id .cascadeComplete) rfl
  apply Keeps.bind
  exact .neutral (uses_perform hneutral) (fun _ => h.issue q id operationId) (fun _ => trivial)

lemma Issues.onCascadePending (h : Issues D d) (operationId : String) :
    D.Keeps q (onCascadePending d id operationId request) (fun _ _ => True) (fun _ _ => True) := by
  apply Keeps.bind
  refine .neutral (prepareCascadeTrigger_routine.mono h.routine) (fun trigger => ?_) (fun _ => trivial)
  cases trigger with
  | shortcutToComplete => exact h.onCascadeComplete operationId
  | planFailed error => exact h.keeps_routine (advanceToPartialFailure_routine _ _)
  | ready plan => exact h.keeps_routine (startCascade_routine _ _ _ _)

lemma Issues.onCascadeInProgress (h : Issues D d) (operationId : String) :
    D.Keeps q (onCascadeInProgress d id operationId request) (fun _ _ => True) (fun _ _ => True) := by
  apply Keeps.bind
  refine .neutral (prepareCascadeTrigger_routine.mono h.routine) (fun trigger => ?_) (fun _ => trivial)
  cases trigger with
  | shortcutToComplete => exact h.onCascadeComplete operationId
  | planFailed error => exact Keeps.pure trivial
  | ready plan => exact h.keeps_routine (startCascade_routine _ _ _ _)

lemma Issues.entering (h : Issues D d) {newStatus : Status} {handler : DeletionRequest → Service DeletionRequest}
    (hh : ∀ request, D.Keeps q (handler request) (fun _ _ => True) (fun _ _ => True)) :
    D.Keeps q (entering id newStatus handler) (fun _ _ => True) (fun _ _ => True) := by
  have hread := h.routine (.getDeletionRequest id) rfl
  apply Keeps.bind
  refine .neutral (uses_perform hread) (fun request => ?_) (fun _ => trivial)
  cases request with
  | none => exact Keeps.throw trivial
  | some request =>
    simp only
    split
    · exact hh request
    · exact Keeps.throw trivial

lemma Issues.advanceRequest (h : Issues D d) (newStatus : Status) (operationId : String) (failed : List String) :
    D.Keeps q (advanceRequest d id newStatus operationId failed) (fun _ _ => True) (fun _ _ => True) := by
  cases newStatus with
  | certificateIssued => exact h.issue q id operationId
  | shredRequested => exact h.entering fun _ => h.keeps_routine (uses_bind (uses_perform rfl) (fun _ => uses_pure _))
  | keyDestroyed => exact h.entering fun _ => h.keeps_routine (onKeyDestroyed_routine _)
  | cascadePending => exact h.entering fun _ => h.onCascadePending operationId
  | cascadeInProgress => exact h.entering fun _ => h.onCascadeInProgress operationId
  | cascadeComplete => exact h.entering fun _ => h.onCascadeComplete operationId
  | cascadePartialFailure => exact h.entering fun _ => h.keeps_routine (onCascadePartialFailure_routine _ _)

lemma Issues.finishCascade (h : Issues D d) (operationId : String) (results : CascadeResults) :
    D.Keeps q (finishCascade d id operationId results) (fun _ _ => True) (fun _ _ => True) := by
  have wipes : (each (DeletionRequestService.recordWipe id) results.janitorResults).run.Uses D.Neutral :=
    uses_each (fun result => recordWipe_uses result fun _ _ => h.record _ rfl) _
  have statements (suffix : String) (results : List SourceRedactionResult) :
      (each (recordStatement id suffix) results).run.Uses D.Neutral :=
    uses_each (fun result => recordStatement_uses suffix result fun _ _ => h.record _ rfl) results
  apply Keeps.bind
  refine .neutral wipes (fun _ => ?_) (fun _ => trivial)
  apply Keeps.bind
  refine .neutral (statements _ _) (fun _ => ?_) (fun _ => trivial)
  apply Keeps.bind
  refine .neutral (statements _ _) (fun _ => ?_) (fun _ => trivial)
  apply Keeps.bind
  exact Keeps.mono (h.advanceRequest _ operationId _) (fun _ _ _ => Keeps.pure trivial) (fun _ _ _ => trivial)

lemma Issues.recoverCascade (h : Issues D d) (operationId err : String) :
    D.Keeps q (recoverCascade d id operationId err) (fun _ _ => True) (fun _ _ => True) := by
  apply Keeps.tryCatch
  apply Keeps.bind
  exact Keeps.mono (h.advanceRequest _ operationId _) (fun _ _ _ => Keeps.pure trivial)
    (fun _ _ _ => Keeps.pure trivial)

lemma Issues.body (h : Issues D d) (j : Job) : D.Follows D.start (j.body d) (fun _ _ => True) := by
  have ignored {α : Type} {q : Q} {x : Service α} (hx : D.Keeps q x (fun _ _ => True) (fun _ _ => True)) :
      D.Follows q (DeletionRequestService.ignore x) (fun _ _ => True) :=
    Follows.bind (Follows.mono hx (fun _ _ _ => trivial))
  have work {α : Type} {x : Service α} (hx : x.run.Uses Work) : x.run.Uses D.Neutral :=
    hx.mono fun op hop => h.routine op (routine_of_work hop)
  cases j with
  | createRequest userId operationId tenantId requestedBy =>
    exact .of_uses (uses_ignore (createRequest_uses h.creation fun op hop => h.routine op (routine_of_work hop)))
      (fun _ => trivial)
  | advanceRequest id newStatus operationId => exact ignored (h.advanceRequest newStatus operationId [])
  | cascade id request tenantId operationId redactionResources encryptedCopyResources =>
    refine Follows.awaitAll (work (processCleanup_work _ _ _)) ?_ (fun janitorResults r => ?_) (fun err => ?_)
    · exact .awaitAll (work (redactUserInDeclaredSources_work _ _ _ _))
        (work (deleteUserFromEncryptedCopies_work _ _ _ _)) (fun _ _ => trivial) (fun _ => trivial)
    · exact ignored (Keeps.tryCatch (Keeps.mono (h.finishCascade operationId _) (fun _ _ _ => trivial)
        (fun err _ _ => h.recoverCascade operationId err)))
    · exact ignored (h.recoverCascade operationId err)

end Issues

end ChameleonVault.Deletion
