import ChameleonVault.Deletion.Addresses
import ChameleonVault.Deletion.Archive

/-! What the shred route reports, beside the requests and certificates that are stored while it runs. -/

namespace ChameleonVault.Deletion

open Concurrency Interleaving Call DeletionRequestService
open KeyRegistry (truthy truthy_eq_some_iff)

variable {d : Deployment} {w w' : World} {id userId tenantId : String} {request : DeletionRequest} {status : Status}

section Truth

/-- As the route that fetches a request reads it: one without a tenant belongs to the default one. -/
def DeletionRequest.OwnedBy (userId tenantId : String) (request : DeletionRequest) : Prop :=
  request.userId = userId ∧ request.tenantId.getD defaultTenant = tenantId

def CertificateIssuedFor (userId tenantId : String) (w : World) : Prop :=
  ∃ path stored, w.bucket.lookup path = some stored ∧ stored.certificate.claims.sub = userId ∧
    stored.certificate.claims.tenantId = tenantId

structure ReportTrue (userId tenantId : String) (status : Status) (w : World) : Prop where
  persisted : ∃ id request, w.deletionRequests.lookup id = some request ∧ request.OwnedBy userId tenantId ∧
    request.status = status
  certified : status = .certificateIssued → CertificateIssuedFor userId tenantId w

/-- What the shred route reports of what it finds is so. -/
def FoundTrue (userId operationId tenantId : String) (w : World) : Prop :=
  match w.deletionRequests.lookup operationId with
  | some request => ReportTrue userId tenantId request.status w
  | none => (w.getKeyStatus userId tenantId).map KeyRegistry.KeyStatus.status = some .shredded →
      ReportTrue userId tenantId .certificateIssued w

end Truth

section Persisted

def Persisted (userId tenantId id : String) (status : Status) (w : World) : Prop :=
  ∃ request, w.deletionRequests.lookup id = some request ∧ StoredFor userId tenantId id request ∧
    request.status = status

def Op.writesStatus (op : Op) : Bool :=
  match op.edit with
  | some (_, .status _) => true
  | _ => false

def Op.isQuiet (op : Op) : Bool := !op.writesStatus && !op.isPublishing

abbrev Quiet (op : Op) : Prop := op.isQuiet = true

def Idle (op : Op) : Prop := op.edit = none ∧ op.isCreation = false

lemma quiet_of_work {op : Op} (h : Work op) : Quiet op := by
  cases op <;> trivial

lemma idle_of_work {op : Op} (h : Work op) : Idle op := by
  cases op <;> first | exact ⟨rfl, rfl⟩ | contradiction

lemma StoredFor.ownedBy (h : StoredFor userId tenantId id request) : request.OwnedBy userId tenantId :=
  ⟨h.user, by rw [h.tenant]; rfl⟩

lemma StoredFor.tenant_eq (h : StoredFor userId tenantId id request) (ht : tenantId ≠ "") :
    request.tenant = tenantId := by
  rw [DeletionRequest.tenant, h.tenant, truthy_eq_some_iff.mpr ⟨rfl, ht⟩]
  rfl

lemma Persisted.reportTrue (h : Persisted userId tenantId id status w)
    (hc : status = .certificateIssued → CertificateIssuedFor userId tenantId w) : ReportTrue userId tenantId status w := by
  obtain ⟨request, hl, hs, hstatus⟩ := h
  exact ⟨⟨id, request, hl, hs.ownedBy, hstatus⟩, hc⟩

variable {op : Op} {choice : Outcome} {reply : Except String op.Res}

lemma Persisted.exec (h : Persisted userId tenantId id status w) (hop : op.writesStatus = false)
    (he : op.exec d choice w = some (reply, w')) : Persisted userId tenantId id status w' := by
  obtain ⟨request, hl, hs, hstatus⟩ := h
  refine ⟨_, exec_lookup (a := ⟨0, op, choice, reply⟩) he hl, hs.after, ?_⟩
  simp only [changeOf]
  simp only [Op.writesStatus] at hop
  split
  · rename_i id' change hedit
    rw [hedit] at hop
    split
    · cases change with
      | status newStatus => contradiction
      | attach fields => exact hstatus
      | wipe destination wipeStatus details => exact hstatus
    · exact hstatus
  · exact hstatus

lemma exec_idle (hop : Idle op) (he : op.exec d choice w = some (reply, w')) :
    w'.deletionRequests = w.deletionRequests := by
  rcases exec_cases he with ⟨-, answer, r, hr, -⟩ | ⟨-, rfl⟩
  · refine run_requests hr hop.1 fun u o t b hc => ?_
    rw [hc] at hop
    exact absurd hop.2 (by simp [Op.isCreation])
  · rfl

lemma lookup_idle (hop : Idle op) (hl : w.deletionRequests.lookup id = some request)
    (he : op.exec d choice w = some (reply, w')) : w'.deletionRequests.lookup id = some request := by
  rw [exec_idle hop he, hl]

lemma CertificateIssuedFor.exec (h : CertificateIssuedFor userId tenantId w) (hop : op.isPublishing = false)
    (he : op.exec d choice w = some (reply, w')) : CertificateIssuedFor userId tenantId w' := by
  obtain ⟨path, stored, hl, hu, ht⟩ := h
  exact ⟨path, stored, (exec_records he hop).2.2 ▸ hl, hu, ht⟩

end Persisted

section Rules

variable {α β : Type} {x : Service α} {ok : α → World → Prop}

/-- The status stands and a certificate, where one is asked for, is stored. -/
structure Stands (userId tenantId id : String) (status : Status) (certified : Bool) (w : World) : Prop where
  standing : Persisted userId tenantId id status w
  issued : certified = true → CertificateIssuedFor userId tenantId w

variable {certified : Bool}

lemma Stands.exec {op : Op} {choice : Outcome} {reply : Except String op.Res}
    (h : Stands userId tenantId id status certified w) (hop : Quiet op)
    (he : op.exec d choice w = some (reply, w')) : Stands userId tenantId id status certified w' := by
  simp only [Quiet, Op.isQuiet, Bool.and_eq_true, Bool.not_eq_true'] at hop
  exact ⟨h.standing.exec hop.1 he, fun hc => (h.issued hc).exec hop.2 he⟩

lemma Stands.quiet (h : Stands userId tenantId id status certified w) (hx : x.run.Uses Quiet)
    (hok : ∀ a w', Stands userId tenantId id status certified w' → ok a w') :
    MustCall (Op.exec d) anything x w ok fun _ _ => True :=
  (MustCall.of_uses hx (fun _ _ _ _ _ hop _ hw he => hw.exec hop he) h).mono hok fun _ _ _ => trivial

lemma must_perform {op : Op} {ok : op.Res → World → Prop}
    (h : ∀ answer a w', op.run d answer w = some (.ok (a, w')) → ok a w') :
    MustCall (Op.exec d) anything (perform op) w ok fun _ _ => True := by
  refine MustCall.perform (fun choice a w' _ he => ?_) fun _ _ _ _ _ => trivial
  obtain ⟨answer, -, hr⟩ := exec_ok he
  exact h answer a w' hr

lemma must_read {ok : Option DeletionRequest → World → Prop} (h : ok (w.deletionRequests.lookup id) w) :
    MustCall (Op.exec d) anything (getDeletionRequest id) w ok fun _ _ => True := by
  refine must_perform fun answer a w' hr => ?_
  obtain ⟨rfl, rfl⟩ := Prod.mk.inj (Except.ok.inj (Option.some.inj hr))
  exact h

lemma standing_writeStatus {newStatus : Status} {now : KeyRegistry.Date}
    (hs : StoredFor userId tenantId id request) :
    Persisted userId tenantId id newStatus (w.putRequest id (request.writeStatus newStatus now)) :=
  ⟨_, AList.lookup_insert w.deletionRequests, ⟨hs.user, hs.tenant, hs.name⟩, rfl⟩

/-- Alone, a call that has just read the status wins its claim. -/
lemma must_claim {newStatus : Status} {ok : Option DeletionRequest → World → Prop}
    (hl : w.deletionRequests.lookup id = some request) (hs : StoredFor userId tenantId id request)
    (hok : ∀ w', Persisted userId tenantId id newStatus w' → ok none w') :
    MustCall (Op.exec d) anything (claimOrLose id request newStatus) w ok fun _ _ => True := by
  apply MustCall.bind
  refine must_perform fun answer a w' hr => ?_
  have hclaim : w.claimTransition id [request.status] newStatus = .ok (a, w') := Option.some.inj hr
  simp only [World.claimTransition, hl, List.mem_singleton, if_true] at hclaim
  obtain ⟨rfl, rfl⟩ := Prod.mk.inj (Except.ok.inj hclaim)
  exact MustCall.pure (hok _ (standing_writeStatus hs))

lemma must_orRollback {α : Type} {effect : Service α} {ok : α → World → Prop}
    (h : MustCall (Op.exec d) anything effect w ok fun _ _ => True) :
    MustCall (Op.exec d) anything (orRollback id request effect) w ok fun _ _ => True := by
  apply MustCall.tryCatch
  refine h.mono (fun _ _ ha => ha) fun err w' _ => ?_
  apply MustCall.bind
  exact MustCall.perform (fun _ _ _ _ _ => MustCall.throw trivial) fun _ _ _ _ _ => trivial

end Rules

section Handlers

variable {operationId : String}

def certifies (status : Status) : Bool := status = .certificateIssued

/-- The request that a handler hands back, against the store that it leaves. -/
structure Reported (userId tenantId id : String) (request : DeletionRequest) (w : World) : Prop where
  name : request.deletionRequestId = id
  stands : Stands userId tenantId id request.status (certifies request.status) w

lemma Persisted.stands (h : Persisted userId tenantId id status w) (hc : certifies status = false) :
    Stands userId tenantId id status (certifies status) w :=
  ⟨h, fun ht => by rw [hc] at ht; contradiction⟩

lemma onKeyDestroyed_reported (hl : w.deletionRequests.lookup id = some request)
    (hs : StoredFor userId tenantId id request) :
    MustCall (Op.exec d) anything (onKeyDestroyed id operationId request) w
      (Reported userId tenantId id) fun _ _ => True := by
  apply MustCall.bind
  refine must_claim hl hs fun w' hw => ?_
  apply MustCall.bind
  refine must_orRollback ((hw.stands rfl).quiet (uses_perform rfl) fun _ w' hw => ?_)
  apply MustCall.bind
  refine hw.quiet (uses_perform rfl) fun now w' hw => ?_
  apply MustCall.bind
  refine hw.quiet ((uses_quietly (recordEvent_work _)).mono fun _ => quiet_of_work) fun _ w' hw => ?_
  apply MustCall.bind
  exact hw.quiet (uses_perform rfl) fun _ w' hw => MustCall.pure ⟨hs.name, hw⟩

lemma onCascadePartialFailure_reported (failed : List String) (hl : w.deletionRequests.lookup id = some request)
    (hs : StoredFor userId tenantId id request) :
    MustCall (Op.exec d) anything (onCascadePartialFailure id operationId failed request) w
      (Reported userId tenantId id) fun _ _ => True := by
  apply MustCall.bind
  refine must_claim hl hs fun w' hw => ?_
  apply MustCall.bind
  refine (hw.stands rfl).quiet ((uses_quietly (recordEvent_work _)).mono fun _ => quiet_of_work) fun _ w' hw => ?_
  apply MustCall.bind
  exact hw.quiet (uses_perform rfl) fun _ w' hw => MustCall.pure ⟨hs.name, hw⟩

lemma startCascade_reported {newStatus : Status} (eventType : String) (plan : Plan) (hc : certifies newStatus = false)
    (hl : w.deletionRequests.lookup id = some request) (hs : StoredFor userId tenantId id request) :
    MustCall (Op.exec d) anything (startCascade id operationId eventType request newStatus plan) w
      (Reported userId tenantId id) fun _ _ => True := by
  apply MustCall.bind
  refine must_claim hl hs fun w' hw => ?_
  apply MustCall.bind
  refine (hw.stands hc).quiet (uses_perform rfl) fun now w' hw => ?_
  apply MustCall.bind
  refine hw.quiet ((uses_quietly (recordEvent_work _)).mono fun _ => quiet_of_work) fun _ w' hw => ?_
  apply MustCall.bind
  refine hw.quiet (uses_perform rfl) fun _ w' hw => ?_
  apply MustCall.bind
  exact hw.quiet (uses_perform rfl) fun _ w' hw => MustCall.pure ⟨hs.name, hw⟩

lemma generateClaims_subject (ghostDataSummary : List GhostDataSummary) (known : List String)
    (h : Persisted userId tenantId id status w) :
    MustCall (Op.exec d) anything (CertificateSigner.generateClaims id userId tenantId ghostDataSummary known) w
      (fun claims w' => Persisted userId tenantId id status w' ∧ claims.sub = userId ∧ claims.tenantId = tenantId)
      fun _ _ => True := by
  have hw : Stands userId tenantId id status false w := ⟨h, nofun⟩
  apply MustCall.bind
  refine hw.quiet (uses_perform rfl) fun keyStatus w' hw => ?_
  apply MustCall.bind
  refine hw.quiet (uses_perform rfl) fun evidence w' hw => ?_
  split
  · exact MustCall.throw trivial
  · apply MustCall.bind
    refine hw.quiet (uses_perform rfl) fun checkedAt w' hw => ?_
    apply MustCall.bind
    refine hw.quiet (uses_perform rfl) fun manualEntries w' hw => ?_
    apply MustCall.bind
    refine hw.quiet (uses_perform rfl) fun issuedAt w' hw => ?_
    apply MustCall.bind
    exact hw.quiet (uses_perform rfl) fun keyFingerprint w' hw => MustCall.pure ⟨hw.standing, rfl, rfl⟩

lemma issueAndStoreCertificate_stands (h : Persisted userId tenantId id status w) :
    MustCall (Op.exec d) anything (CertificateService.issueAndStoreCertificate d userId id tenantId) w
      (fun _ w' => Stands userId tenantId id status true w') fun _ _ => True := by
  have hw : Stands userId tenantId id status false w := ⟨h, nofun⟩
  apply MustCall.bind
  refine hw.quiet (uses_perform rfl) fun ghostDataSummary w' hw => ?_
  apply MustCall.bind
  refine (generateClaims_subject ghostDataSummary registeredConnectors hw.standing).mono ?_ fun _ _ _ => trivial
  rintro claims w₁ ⟨hw, hsub, htenant⟩
  apply MustCall.bind
  refine MustCall.perform (fun choice chained w₂ _ he => ?_) fun _ _ _ _ _ => trivial
  have hclaims : chained.certificate.claims = claims := by
    obtain ⟨answer, -, hr⟩ := exec_ok he
    cases answer <;> cases hr
    rfl
  have hw₂ : Stands userId tenantId id status false w₂ := ⟨hw.exec rfl he, nofun⟩
  apply MustCall.bind
  refine hw₂.quiet ((timestamp_work d _).mono fun _ => quiet_of_work) fun tsaTimestamp w₃ hw₃ => ?_
  apply MustCall.bind
  refine hw₃.quiet ((publish_work d _ _).mono fun _ => quiet_of_work) fun rekorEntry w₄ hw₄ => ?_
  refine MustCall.perform (fun choice uri w₅ _ he => ⟨hw₄.standing.exec rfl he, fun _ => ?_⟩) fun _ _ _ _ _ => trivial
  obtain ⟨answer, -, hr⟩ := exec_ok he
  obtain ⟨-, rfl⟩ := Prod.mk.inj (Except.ok.inj (Option.some.inj hr))
  exact ⟨_, _, AList.lookup_insert w₄.bucket, by rw [hclaims, hsub], by rw [hclaims, htenant]⟩

lemma onCertificateIssued_reported (ht : tenantId ≠ "") (hl : w.deletionRequests.lookup id = some request)
    (hs : StoredFor userId tenantId id request) :
    MustCall (Op.exec d) anything (onCertificateIssued d id operationId request) w
      (Reported userId tenantId id) fun _ _ => True := by
  apply MustCall.bind
  refine must_claim hl hs fun w' hw => ?_
  apply MustCall.bind
  rw [hs.name, hs.user, hs.tenant_eq ht]
  refine must_orRollback ((issueAndStoreCertificate_stands hw).mono (fun _ w' hw => ?_) fun _ _ _ => trivial)
  apply MustCall.bind
  refine hw.quiet (uses_perform rfl) fun now w' hw => ?_
  apply MustCall.bind
  refine hw.quiet ((uses_quietly (recordEvent_work _)).mono fun _ => quiet_of_work) fun _ w' hw => ?_
  apply MustCall.bind
  exact hw.quiet (uses_perform rfl) fun _ w' hw => MustCall.pure ⟨hs.name, hw⟩

/-- What is read is the request as it stands, and the handler runs from there. -/
lemma entering_reported {newStatus : Status} {handler : DeletionRequest → Service DeletionRequest}
    (h : Persisted userId tenantId id status w)
    (hhandler : ∀ request, w.deletionRequests.lookup id = some request → StoredFor userId tenantId id request →
      MustCall (Op.exec d) anything (handler request) w (Reported userId tenantId id) fun _ _ => True) :
    MustCall (Op.exec d) anything (entering id newStatus handler) w (Reported userId tenantId id) fun _ _ => True := by
  obtain ⟨request, hl, hs, -⟩ := h
  apply MustCall.bind
  refine must_read ?_
  simp only [hl]
  split
  · exact hhandler request hl hs
  · exact MustCall.throw trivial

lemma advanceToPartialFailure_reported (failed : List String) (h : Persisted userId tenantId id status w) :
    MustCall (Op.exec d) anything (advanceToPartialFailure id operationId failed) w
      (Reported userId tenantId id) fun _ _ => True :=
  entering_reported h fun _ hl hs => onCascadePartialFailure_reported failed hl hs

lemma shortcutToCascadeComplete_reported (ht : tenantId ≠ "") (h : Persisted userId tenantId id status w) :
    MustCall (Op.exec d) anything (shortcutToCascadeComplete d id operationId) w
      (Reported userId tenantId id) fun _ _ => True := by
  obtain ⟨request, hl, hs, -⟩ := h
  apply MustCall.bind
  refine must_perform fun answer a w' hr => ?_
  have hu : w.updateRequest id "NOT_FOUND" (·.writeStatus .cascadeComplete w.clock) = .ok (a, w') := Option.some.inj hr
  simp only [World.updateRequest, hl] at hu
  obtain ⟨-, rfl⟩ := Prod.mk.inj (Except.ok.inj hu)
  exact entering_reported (standing_writeStatus hs) fun _ hl hs => onCertificateIssued_reported ht hl hs

lemma prepareCascadeTrigger_idle : (prepareCascadeTrigger id request).run.Uses Idle := by
  refine uses_tryCatch ?_ fun _ => uses_pure _
  apply uses_bind ((createCleanupPlan_work _ _).mono fun _ => idle_of_work)
  intro tasks
  refine uses_bind (uses_perform ⟨rfl, rfl⟩) fun plan => ?_
  split <;> exact uses_pure _

lemma onCascadePending_reported (ht : tenantId ≠ "") (hl : w.deletionRequests.lookup id = some request)
    (hs : StoredFor userId tenantId id request) :
    MustCall (Op.exec d) anything (onCascadePending d id operationId request) w
      (Reported userId tenantId id) fun _ _ => True := by
  apply MustCall.bind
  refine (MustCall.of_uses prepareCascadeTrigger_idle (fun _ _ _ _ _ hop _ hl he => lookup_idle hop hl he) hl).mono
    (fun trigger w' hl => ?_) fun _ _ _ => trivial
  cases trigger with
  | shortcutToComplete => exact shortcutToCascadeComplete_reported ht ⟨request, hl, hs, rfl⟩
  | planFailed error => exact advanceToPartialFailure_reported _ ⟨request, hl, hs, rfl⟩
  | ready plan => exact startCascade_reported _ plan rfl hl hs

end Handlers

section Replies

variable {operationId randomUUID : String} {headers : Headers} {body : DeletionBody}

def ReplyTrue (userId tenantId : String) (reply : Reply ShredReport) (w : World) : Prop :=
  ∀ report, reply = .sent 200 report → ReportTrue userId tenantId report.status w

lemma Reported.replyTrue (h : Reported userId tenantId id request w) :
    ReplyTrue userId tenantId (.sent 200 (initiated userId request)) w := by
  rintro report ⟨⟩
  exact h.stands.standing.reportTrue fun hc => h.stands.issued (decide_eq_true hc)

lemma shredAndCascade_true (ht : tenantId ≠ "") (h : Persisted userId tenantId id status w)
    (hname : request.deletionRequestId = id) :
    MustCall (Op.exec d) anything (shredAndCascade d userId operationId request) w
      (ReplyTrue userId tenantId) fun _ _ => True := by
  apply MustCall.bind
  rw [hname]
  refine (entering_reported h fun _ hl hs => onKeyDestroyed_reported hl hs).mono (fun shredded w' hr => ?_)
    fun _ _ _ => trivial
  apply MustCall.bind
  rw [hr.name]
  refine (entering_reported hr.stands.standing fun _ hl hs => onCascadePending_reported ht hl hs).mono
    (fun launched w'' hr => ?_) fun _ _ _ => trivial
  exact MustCall.pure hr.replyTrue

lemma getActive_true (h : w.getActiveDeletionRequestForUser userId tenantId = some request) :
    ReportTrue userId tenantId request.status w := by
  obtain ⟨hm, hf⟩ := List.mem_filter.mp (newest_mem h)
  simp only [Bool.decide_and, Bool.and_eq_true, decide_eq_true_eq] at hf
  obtain ⟨hu, ht, ha⟩ := hf
  obtain ⟨id, hl⟩ := mem_requests.mp hm
  refine ⟨⟨id, request, hl, ⟨hu, by rw [ht]; rfl⟩, rfl⟩, fun hc => ?_⟩
  rw [DeletionRequest.isActive, hc] at ha
  contradiction

lemma createRequest_stands (hn : w.deletionRequests.lookup operationId = none) :
    MustCall (Op.exec d) anything (createRequest userId operationId tenantId none) w
      (fun created w' => (created.alreadyExisted = true → ReportTrue userId tenantId created.request.status w') ∧
        (created.alreadyExisted = false → created.request.deletionRequestId = operationId ∧
          Persisted userId tenantId operationId .shredRequested w')) fun _ _ => True := by
  apply MustCall.bind
  refine must_perform fun answer existing w' hr => ?_
  obtain ⟨rfl, rfl⟩ := Prod.mk.inj (Except.ok.inj (Option.some.inj hr))
  cases ha : w.getActiveDeletionRequestForUser userId tenantId with
  | some request => exact MustCall.pure ⟨fun _ => getActive_true ha, fun h => by cases h⟩
  | none =>
    apply MustCall.bind
    refine must_perform fun answer created w' hr => ?_
    have hc : w.createDeletionRequest userId operationId tenantId none = (created, w') :=
      Except.ok.inj (Option.some.inj hr)
    simp only [World.createDeletionRequest, hn] at hc
    obtain ⟨rfl, rfl⟩ := Prod.mk.inj hc
    have hw : Stands userId tenantId operationId .shredRequested false
        (w.putRequest operationId (.new userId operationId tenantId none w.clock)) :=
      ⟨⟨_, AList.lookup_insert w.deletionRequests, ⟨rfl, rfl, rfl⟩, rfl⟩, fun h => by cases h⟩
    apply MustCall.bind
    exact hw.quiet ((uses_quietly (recordEvent_work _)).mono fun _ => quiet_of_work) fun _ w' hw =>
      MustCall.pure ⟨fun h => (by cases h), fun _ => ⟨rfl, hw.standing⟩⟩

lemma startDeletion_true (ht : tenantId ≠ "") (hn : w.deletionRequests.lookup operationId = none) :
    MustCall (Op.exec d) anything (startDeletion d userId operationId tenantId) w
      (ReplyTrue userId tenantId) fun _ _ => True := by
  apply MustCall.bind
  refine (createRequest_stands hn).mono (fun created w' hc => ?_) fun _ _ _ => trivial
  split
  · rename_i hexisted
    refine MustCall.pure ?_
    rintro report ⟨⟩
    exact hc.1 hexisted
  · rename_i hexisted
    obtain ⟨hname, hstanding⟩ := hc.2 (by simpa using hexisted)
    exact shredAndCascade_true ht hstanding hname

lemma tenant_ne (headers : Headers) : headers.tenant ≠ "" := by
  rw [Headers.tenant]
  cases ht : truthy headers.tenantId with
  | none => decide
  | some tenantId => exact (truthy_eq_some_iff.mp ht).2

lemma shredRequest_true (ht : tenantId ≠ "") (h : FoundTrue userId operationId tenantId w) :
    MustCall (Op.exec d) anything (shredRequest d userId operationId tenantId) w
      (ReplyTrue userId tenantId) fun _ _ => True := by
  apply MustCall.bind
  refine must_read ?_
  unfold FoundTrue at h
  cases hl : w.deletionRequests.lookup operationId with
  | some request =>
    rw [hl] at h
    refine MustCall.pure ?_
    rintro report ⟨⟩
    exact h
  | none =>
    rw [hl] at h
    apply MustCall.bind
    refine must_perform fun answer keyEntry w' hr => ?_
    obtain ⟨rfl, rfl⟩ := Prod.mk.inj (Except.ok.inj (Option.some.inj hr))
    cases hk : w.getKeyStatus userId tenantId with
    | none => exact MustCall.pure nofun
    | some keyEntry =>
      rw [hk] at h
      simp only
      split
      · rename_i hshredded
        refine MustCall.pure ?_
        rintro report ⟨⟩
        exact h (congrArg some hshredded)
      · exact startDeletion_true ht hl

lemma keyShred_true (h : FoundTrue body.user (body.operation.getD (headers.correlation randomUUID)) headers.tenant w) :
    MustCall (Op.exec d) anything (keyShred d headers randomUUID body) w
      (ReplyTrue body.user headers.tenant) fun _ _ => True := by
  unfold keyShred
  split
  · apply MustCall.tryCatch
    exact (shredRequest_true (tenant_ne headers) h).mono (fun _ _ hr => hr) fun _ _ _ => MustCall.pure nofun
  · exact MustCall.pure nofun

lemma passes_found {userId operationId tenantId : String}
    (hl : w.deletionRequests.lookup operationId = some request) :
    Passes (Op.exec d) anything (answered "Failed to shred key" (shredRequest d userId operationId tenantId)).run w
      (.ok (.sent 200 (underway userId request))) [w, w] := by
  refine ⟨.done .none, .ok (some request), w, [w], trivial, ?_, ?_, rfl⟩
  · rw [← hl]
    rfl
  · exact ⟨rfl, rfl⟩

lemma passes_shredded {userId operationId tenantId : String} (hl : w.deletionRequests.lookup operationId = none)
    {keyEntry : KeyRegistry.KeyStatus} (hk : w.getKeyStatus userId tenantId = some keyEntry)
    (hs : keyEntry.status = .shredded) :
    Passes (Op.exec d) anything (answered "Failed to shred key" (shredRequest d userId operationId tenantId)).run w
      (.ok (.sent 200 (alreadyShredded userId))) [w, w, w] := by
  refine ⟨.done .none, .ok none, w, [w, w], trivial, ?_, ?_, rfl⟩
  · rw [← hl]
    rfl
  · refine ⟨.done .none, .ok (some keyEntry), w, [w], trivial, ?_, ?_, rfl⟩
    · rw [← hk]
      rfl
    · show Passes _ _ (Prog.bind (ExceptT.run (if keyEntry.status = .shredded then _ else _)) _) w _ [w]
      rw [if_pos hs]
      exact ⟨rfl, rfl⟩

end Replies

section Runs

/-- Ada's key is destroyed, and the cascade that her request launched is under way. -/
def midCascade : World :=
  match (emptyVault 0).writeKey "ada" "acme" (.shred (some operation)) with
  | .ok (_, w) => w.putRequest operation { adasRequest with status := .cascadePending }
  | .error _ => emptyVault 0

end Runs

end ChameleonVault.Deletion
