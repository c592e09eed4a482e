import ChameleonVault.Concurrency.Solo
import ChameleonVault.Deletion.Holders

/-! Whether a request can still be brought to its certificate by advancing it, once everything it
depends on works. -/

namespace ChameleonVault.Deletion

open Concurrency Interleaving Discipline DeletionRequestService

variable {d : Deployment} {id : String} {w : World} {request : DeletionRequest}

def isGone : Option KeyRegistry.KeyMetadata → Bool
  | some data => data.status = .shredded || data.status = .deleted
  | none => false

def keyGone (w : World) (request : DeletionRequest) : Bool := isGone (w.keyDoc request.userId request.tenant)

def Op.advances (id : String) : Op → Bool
  | .getDeletionRequest id' => id' = id
  | .getActiveDeletionRequestForUser _ _ => false
  | .createDeletionRequest _ _ _ _ => false
  | _ => true

def Op.succeeds : (op : Op) → Except String op.Res → Bool
  | .wipe _ _ _ _, .ok result => result.success
  | _, .ok _ => true
  | _, .error _ => false

def Op.Recovers (id : String) (op : Op) (reply : Except String op.Res) : Prop :=
  op.advances id = true ∧ op.succeeds reply = true

/-- The request is advanced, nothing else happens, and every operation succeeds. -/
def recovering (id : String) : (vault d).Guard := fun _ _ e =>
  match e with
  | .act a => a.op.Recovers id a.reply
  | .env _ => False

def Recoverable (d : Deployment) (id : String) (w : World) : Prop :=
  ∃ c : (vault d).Config, Reachable (recovering id) (initial w) c ∧
    ∃ request, c.state.deletionRequests.lookup id = some request ∧ request.status = .certificateIssued ∧
      keyGone c.state request = true

section Ends

variable (d id) in
def Ends {α : Type} (x : Service α) (w : World) (ok : α → World → Prop) : Prop :=
  CanCall (Op.exec d) (Op.Recovers id) x w ok

variable {α β : Type}

lemma Ends.bind {x : Service α} {f : α → Service β} {ok : β → World → Prop}
    (h : Ends d id x w (fun a w => Ends d id (f a) w ok)) : Ends d id (x >>= f) w ok :=
  CanCall.bind h

lemma ends_perform {op : Op} {ok : op.Res → World → Prop} (answer : Answer) {a : op.Res} {w' : World}
    (hr : op.run d answer w = some (.ok (a, w'))) (hg : op.advances id = true) (hs : op.succeeds (.ok a) = true)
    (h : ok a w') : Ends d id (perform op) w ok := by
  have he : op.exec d (.done answer) w = some (.ok a, w') := by simp only [Op.exec, hr]
  exact CanCall.perform he ⟨hg, hs⟩ h

lemma ends_dateNow {ok : KeyRegistry.Date → World → Prop} (h : ok w.clock w) : Ends d id dateNow w ok :=
  ends_perform .none rfl rfl rfl h

lemma ends_recordEvent {event : LineageEvent} {ok : Unit → World → Prop} (h : ok () w) :
    Ends d id (Call.quietly (recordEvent event)) w ok :=
  CanCall.tryCatch (ends_perform .none rfl rfl rfl h)

variable (hl : w.deletionRequests.lookup id = some request)

include hl

lemma ends_entering {newStatus : Status} {handler : DeletionRequest → Service DeletionRequest}
    {ok : DeletionRequest → World → Prop} (hv : isValidTransition request.status newStatus = true)
    (h : Ends d id (handler request) w ok) : Ends d id (entering id newStatus handler) w ok := by
  apply Ends.bind
  refine ends_perform .none rfl (by simp [Op.advances]) rfl ?_
  simp only [hl, hv, if_true]
  exact h

lemma ends_claimOrLose {newStatus : Status} {ok : Option DeletionRequest → World → Prop}
    (h : ∀ w', w'.deletionRequests.lookup id = some (request.writeStatus newStatus w.clock) →
      w'.keyRegistry = w.keyRegistry → ok none w') :
    Ends d id (claimOrLose id request newStatus) w ok := by
  apply Ends.bind
  have hr : (Op.claimTransition id [request.status] newStatus).run d .none w =
      some (.ok (.claimed, w.putRequest id (request.writeStatus newStatus w.clock))) := by
    simp only [Op.run, World.claimTransition, hl, List.mem_singleton, if_true]
    rfl
  exact ends_perform .none hr rfl rfl (h _ (by simp [World.putRequest]) rfl)

lemma ends_writeStatus {newStatus : Status} {ok : Unit → World → Prop}
    (h : ∀ w', w'.deletionRequests.lookup id = some (request.writeStatus newStatus w.clock) →
      w'.keyRegistry = w.keyRegistry → ok () w') :
    Ends d id (updateDeletionRequestStatus id newStatus) w ok := by
  have hr : (Op.updateDeletionRequestStatus id newStatus).run d .none w =
      some (.ok ((), w.putRequest id (request.writeStatus newStatus w.clock))) := by
    simp only [Op.run, World.updateDeletionRequestStatus, World.updateRequest, hl]
    rfl
  exact ends_perform .none hr rfl rfl (h _ (by simp [World.putRequest]) rfl)

lemma ends_writeFields {fields : UpdateFields} {ok : Unit → World → Prop}
    (h : ∀ w', w'.deletionRequests.lookup id = some (request.writeFields fields) →
      w'.keyRegistry = w.keyRegistry → ok () w') :
    Ends d id (updateDeletionRequestFields id fields) w ok := by
  by_cases hf : fields = {}
  · subst hf
    have hr : (Op.updateDeletionRequestFields id {}).run d .none w = some (.ok ((), w)) := by
      simp only [Op.run, World.updateDeletionRequestFields, if_true]
      rfl
    exact ends_perform .none hr rfl rfl (h w hl rfl)
  · have hr : (Op.updateDeletionRequestFields id fields).run d .none w =
        some (.ok ((), w.putRequest id (request.writeFields fields))) := by
      simp only [Op.run, World.updateDeletionRequestFields, World.updateRequest, hf, hl, if_false]
      rfl
    exact ends_perform .none hr rfl rfl (h _ (by simp [World.putRequest]) rfl)

lemma ends_generateClaims (hs : request.status = .certificateIssued) (hk : keyGone w request = true)
    {ghostDataSummary : List GhostDataSummary} {known : List String} {ok : Claims → World → Prop}
    (h : ∀ claims, ok claims w) :
    Ends d id (CertificateSigner.generateClaims id request.userId request.tenant ghostDataSummary known) w ok := by
  obtain ⟨keyStatus, hstatus, hgone⟩ : ∃ keyStatus, w.getKeyStatus request.userId request.tenant = some keyStatus ∧
      (keyStatus.status = .shredded ∨ keyStatus.status = .deleted) := by
    cases hdoc : w.keyDoc request.userId request.tenant with
    | none => simp [keyGone, isGone, hdoc] at hk
    | some data =>
      refine ⟨_, by simp only [World.getKeyStatus, KeyRegistry.getKeyStatus, hdoc, Option.map_some]; rfl, ?_⟩
      simpa [keyGone, isGone, hdoc] using hk
  have hready : CertificateSigner.assertReady request.userId (some keyStatus) (some request) =
      .ok (keyStatus, request) := by
    simp only [CertificateSigner.assertReady, CertificateSigner.assertKeyShredded, hgone, if_true,
      CertificateSigner.assertCascadeComplete, hs, or_true]
    rfl
  apply Ends.bind
  refine ends_perform .none rfl rfl rfl ?_
  apply Ends.bind
  refine ends_perform .none rfl rfl rfl ?_
  simp only [hstatus, hl, hready]
  apply Ends.bind
  apply ends_dateNow
  apply Ends.bind
  refine ends_perform .none rfl rfl rfl ?_
  apply Ends.bind
  apply ends_dateNow
  apply Ends.bind
  refine ends_perform (.text "fingerprint") rfl rfl rfl ?_
  exact CanCall.pure (h _)

omit hl

lemma ends_timestamp {hash : String} {entry : CertificateChainEntry} (he : w.chainEntries.lookup hash = some entry)
    {ok : Option TsaTimestampInfo → World → Prop}
    (h : ∀ info w', w'.deletionRequests = w.deletionRequests → w'.keyRegistry = w.keyRegistry →
      (∃ entry, w'.chainEntries.lookup hash = some entry) → ok info w') :
    Ends d id (CertificateService.timestamp d hash) w ok := by
  rw [CertificateService.timestamp]
  split
  · apply Ends.bind
    refine ends_perform (.stamped ⟨true, ""⟩) rfl rfl rfl ?_
    apply Ends.bind
    have hr : (Op.recordTsaTimestamp hash ⟨true, ""⟩).run d .none w = some (.ok ((), { w with
        chainEntries := w.chainEntries.insert hash { entry with tsaTimestamp := some ⟨true, ""⟩ } })) := by
      simp only [Op.run, World.updateEntry, he]
      rfl
    refine CanCall.tryCatch (ends_perform .none hr rfl rfl ?_)
    exact CanCall.pure (h _ _ rfl rfl ⟨_, AList.lookup_insert _⟩)
  · exact CanCall.pure (h _ w rfl rfl ⟨entry, he⟩)

lemma ends_publish {hash : String} {previousHash : Option String} {entry : CertificateChainEntry}
    (he : w.chainEntries.lookup hash = some entry) {ok : Option RekorLogEntryInfo → World → Prop}
    (h : ∀ info w', w'.deletionRequests = w.deletionRequests → w'.keyRegistry = w.keyRegistry → ok info w') :
    Ends d id (CertificateService.publish d hash previousHash) w ok := by
  rw [CertificateService.publish]
  split
  · apply Ends.bind
    refine ends_perform (.published ⟨true, ""⟩) rfl rfl rfl ?_
    apply Ends.bind
    have hr : (Op.recordRekorEntry hash ⟨true, ""⟩).run d .none w = some (.ok ((), { w with
        chainEntries := w.chainEntries.insert hash { entry with rekorEntry := some ⟨true, ""⟩ } })) := by
      simp only [Op.run, World.updateEntry, he]
      rfl
    refine CanCall.tryCatch (ends_perform .none hr rfl rfl ?_)
    exact CanCall.pure (h _ _ rfl rfl)
  · exact CanCall.pure (h _ w rfl rfl)

include hl

lemma ends_issue (hs : request.status = .certificateIssued) (hk : keyGone w request = true)
    {ok : String → World → Prop}
    (h : ∀ path w', w'.deletionRequests = w.deletionRequests → w'.keyRegistry = w.keyRegistry → ok path w') :
    Ends d id (CertificateService.issueAndStoreCertificate d request.userId id request.tenant) w ok := by
  apply Ends.bind
  refine ends_perform (.findings []) rfl rfl rfl ?_
  apply Ends.bind
  refine ends_generateClaims hl hs hk fun claims => ?_
  apply Ends.bind
  refine ends_perform (.signed "version" "signature") rfl rfl rfl ?_
  apply Ends.bind
  refine ends_timestamp (AList.lookup_insert _) fun tsaTimestamp w' hr hkr he => ?_
  obtain ⟨entry, he⟩ := he
  apply Ends.bind
  refine ends_publish he fun rekorEntry w'' hr' hkr' => ?_
  exact ends_perform .none rfl rfl rfl (h _ _ (hr'.trans hr) (hkr'.trans hkr))

end Ends

section Advance

lemma keyGone_congr {w' : World} {request' : DeletionRequest} (hk : keyGone w request = true)
    (hr : w'.keyRegistry = w.keyRegistry) (hu : request'.userId = request.userId)
    (ht : request'.tenantId = request.tenantId) : keyGone w' request' = true := by
  simp only [keyGone, World.keyDoc, DeletionRequest.tenant] at hk ⊢
  rw [hr, hu, ht]
  exact hk

def Standing (id : String) (status : Status) (w : World) : Prop :=
  ∃ request, w.deletionRequests.lookup id = some request ∧ request.deletionRequestId = id ∧
    request.status = status ∧ keyGone w request = true

variable (hl : w.deletionRequests.lookup id = some request) (hid : request.deletionRequestId = id)
  (hk : keyGone w request = true) (operationId : String)

include hl hid hk

lemma ends_onCertificateIssued :
    Ends d id (onCertificateIssued d id operationId request) w (fun _ => Standing id .certificateIssued) := by
  apply Ends.bind
  refine ends_claimOrLose hl fun w₁ hl₁ hk₁ => ?_
  have hgone : keyGone w₁ (request.writeStatus .certificateIssued w.clock) = true := keyGone_congr hk hk₁ rfl rfl
  apply Ends.bind
  refine CanCall.tryCatch ?_
  rw [hid]
  refine ends_issue hl₁ rfl hgone fun gcsPath w₂ hr₂ hk₂ => ?_
  apply Ends.bind
  apply ends_dateNow
  apply Ends.bind
  apply ends_recordEvent
  apply Ends.bind
  refine ends_writeFields (hr₂ ▸ hl₁) fun w₃ hl₃ hk₃ => ?_
  exact CanCall.pure ⟨_, hl₃, hid, rfl, keyGone_congr hgone (hk₃.trans hk₂) rfl rfl⟩

lemma ends_onCascadeComplete :
    Ends d id (onCascadeComplete d id operationId) w (fun _ => Standing id .certificateIssued) := by
  apply Ends.bind
  refine ends_writeStatus hl fun w₁ hl₁ hk₁ => ?_
  have hgone : keyGone w₁ (request.writeStatus .cascadeComplete w.clock) = true := keyGone_congr hk hk₁ rfl rfl
  exact ends_entering hl₁ rfl (ends_onCertificateIssued hl₁ hid hgone operationId)

omit hl hid hk in
lemma ends_prepareCascadeTrigger {ok : CascadeTrigger → World → Prop} (hs : ok .shortcutToComplete w)
    (hr : ∀ plan, ok (.ready plan) w) :
    Ends d id (prepareCascadeTrigger id request) w ok := by
  refine CanCall.tryCatch (CanCall.bind (CanCall.bind ?_))
  refine ends_perform .none rfl rfl rfl ?_
  refine CanCall.pure (CanCall.bind ?_)
  refine ends_perform .none rfl rfl rfl ?_
  split
  · exact CanCall.pure hs
  · exact CanCall.pure (hr _)

lemma ends_startCascade (eventType : String) (newStatus : Status) (plan : Plan) :
    Ends d id (startCascade id operationId eventType request newStatus plan) w (fun _ => Standing id newStatus) := by
  apply Ends.bind
  refine ends_claimOrLose hl fun w₁ hl₁ hk₁ => ?_
  apply Ends.bind
  apply ends_dateNow
  apply Ends.bind
  apply ends_recordEvent
  apply Ends.bind
  refine ends_writeFields hl₁ fun w₂ hl₂ hk₂ => ?_
  apply Ends.bind
  refine ends_perform .none rfl rfl rfl ?_
  exact CanCall.pure ⟨_, hl₂, hid, rfl, keyGone_congr hk (hk₂.trans hk₁) rfl rfl⟩

lemma ends_onCascadePending :
    Ends d id (onCascadePending d id operationId request) w
      (fun _ w => Standing id .cascadePending w ∨ Standing id .certificateIssued w) := by
  apply Ends.bind
  apply ends_prepareCascadeTrigger
  · exact CanCall.mono (ends_onCascadeComplete hl hid hk operationId) fun _ _ h => .inr h
  · intro plan
    exact CanCall.mono (ends_startCascade hl hid hk operationId _ _ plan) fun _ _ h => .inl h

lemma ends_onCascadeInProgress :
    Ends d id (onCascadeInProgress d id operationId request) w
      (fun _ w => Standing id .cascadeInProgress w ∨ Standing id .certificateIssued w) := by
  apply Ends.bind
  apply ends_prepareCascadeTrigger
  · exact CanCall.mono (ends_onCascadeComplete hl hid hk operationId) fun _ _ h => .inr h
  · intro plan
    exact CanCall.mono (ends_startCascade hl hid hk operationId _ _ plan) fun _ _ h => .inl h

omit hl hid hk

lemma ends_shred {ok : Unit → World → Prop}
    (h : ∀ w', w'.deletionRequests = w.deletionRequests → keyGone w' request = true → ok () w') :
    Ends d id (shredKeyForUser request.userId request.tenant id) w ok := by
  have hr : ∃ data, (Op.shredKeyForUser request.userId request.tenant id).run d .none w = some (.ok ((), { w with
      keyRegistry := w.keyRegistry.insert (KeyRegistry.getDocId request.tenant request.userId) data })) ∧
      data.status = .shredded := ⟨_, rfl, rfl⟩
  obtain ⟨data, hr, hs⟩ := hr
  exact ends_perform .none hr rfl rfl (h _ rfl (by simp [keyGone, World.keyDoc, isGone, hs]))

include hl hid

lemma ends_onKeyDestroyed :
    Ends d id (onKeyDestroyed id operationId request) w (fun _ => Standing id .keyDestroyed) := by
  apply Ends.bind
  refine ends_claimOrLose hl fun w₁ hl₁ hk₁ => ?_
  apply Ends.bind
  refine CanCall.tryCatch (ends_shred fun w₂ hr₂ hgone => ?_)
  apply Ends.bind
  apply ends_dateNow
  apply Ends.bind
  apply ends_recordEvent
  apply Ends.bind
  refine ends_writeFields (hr₂ ▸ hl₁) fun w₃ hl₃ hk₃ => ?_
  exact CanCall.pure ⟨_, hl₃, hid, rfl, keyGone_congr hgone hk₃ rfl rfl⟩

end Advance

section Leads

lemma leads_advance {P P' : World → Prop} (newStatus : Status)
    (h : ∀ w, P w → Ends d id (advanceRequest d id newStatus "recovery" []) w (fun _ => P')) :
    Leads (@recovering d id) P P' := by
  have hg (s : World) (log : (vault d).Log) (a : (vault d).Action) (ha : Op.Recovers id a.op a.reply) :
      recovering id s log (.act a) := ha
  refine leads_of_can hg (j := .advanceRequest id newStatus "recovery") rfl fun w hw => ?_
  refine Can.bind (Can.mono (h w hw) ?_)
  rintro (e | r) s hs
  · exact hs.elim
  · exact hs

lemma leads_certificate : Leads (@recovering d id) (Standing id .cascadeComplete) (Standing id .certificateIssued) :=
  leads_advance .certificateIssued fun _ ⟨_, hl, hid, hs, hk⟩ =>
    ends_entering hl (by rw [hs]; rfl) (ends_onCertificateIssued hl hid hk _)

lemma leads_complete {status : Status} (hv : isValidTransition status .cascadeComplete = true) :
    Leads (@recovering d id) (Standing id status) (Standing id .certificateIssued) :=
  leads_advance .cascadeComplete fun _ ⟨_, hl, hid, hs, hk⟩ =>
    ends_entering hl (by rw [hs]; exact hv) (ends_onCascadeComplete hl hid hk _)

lemma leads_keyDestroyed :
    Leads (@recovering d id) (Standing id .keyDestroyed) (Standing id .certificateIssued) := by
  have h : Leads (@recovering d id) (Standing id .keyDestroyed)
      (fun w => Standing id .cascadePending w ∨ Standing id .certificateIssued w) :=
    leads_advance .cascadePending fun _ ⟨_, hl, hid, hs, hk⟩ =>
      ends_entering hl (by rw [hs]; rfl) (ends_onCascadePending hl hid hk _)
  exact h.trans (.either (leads_complete rfl) (.refl _ _))

lemma leads_partialFailure :
    Leads (@recovering d id) (Standing id .cascadePartialFailure) (Standing id .certificateIssued) := by
  have h : Leads (@recovering d id) (Standing id .cascadePartialFailure)
      (fun w => Standing id .cascadeInProgress w ∨ Standing id .certificateIssued w) :=
    leads_advance .cascadeInProgress fun _ ⟨_, hl, hid, hs, hk⟩ =>
      ends_entering hl (by rw [hs]; rfl) (ends_onCascadeInProgress hl hid hk _)
  exact h.trans (.either (leads_complete rfl) (.refl _ _))

lemma leads_standing {status : Status} (h : status ≠ .shredRequested) :
    Leads (@recovering d id) (Standing id status) (Standing id .certificateIssued) := by
  cases status with
  | shredRequested => contradiction
  | keyDestroyed => exact leads_keyDestroyed
  | cascadePending => exact leads_complete rfl
  | cascadeInProgress => exact leads_complete rfl
  | cascadeComplete => exact leads_certificate
  | cascadePartialFailure => exact leads_partialFailure
  | certificateIssued => exact .refl _ _

lemma leads_shredRequested :
    Leads (@recovering d id) (fun w => ∃ request, w.deletionRequests.lookup id = some request ∧
      request.deletionRequestId = id ∧ request.status = .shredRequested) (Standing id .certificateIssued) := by
  have h : Leads (@recovering d id) (fun w => ∃ request, w.deletionRequests.lookup id = some request ∧
      request.deletionRequestId = id ∧ request.status = .shredRequested) (Standing id .keyDestroyed) :=
    leads_advance .keyDestroyed fun _ ⟨_, hl, hid, hs⟩ =>
      ends_entering hl (by rw [hs]; rfl) (ends_onKeyDestroyed hl hid _)
  exact h.trans leads_keyDestroyed

lemma recoverable_of (hw : Keyed w) (hl : w.deletionRequests.lookup id = some request)
    (h : request.status = .shredRequested ∨ keyGone w request = true) : Recoverable d id w := by
  have hid : request.deletionRequestId = id := hw id request hl
  have hlead : ∃ c : (vault d).Config, Reachable (recovering id) (initial w) c ∧
      Standing id .certificateIssued c.state := by
    by_cases hs : request.status = .shredRequested
    · exact leads_shredRequested (initial w) ⟨request, hl, hid, hs⟩
    · exact leads_standing hs (initial w) ⟨request, hl, hid, rfl, h.resolve_left hs⟩
  obtain ⟨c, hr, request', hl', -, hs', hk'⟩ := hlead
  exact ⟨c, hr, request', hl', hs', hk'⟩

end Leads

section Stranded

variable {w₀ w' : World} {log : (vault d).Log} {a : (vault d).Action} {subject : DeletionRequest}

structure Stranded (id : String) (w₀ : World) (subject : DeletionRequest) (w : World) (log : (vault d).Log) : Prop where
  keys : w.keyRegistry = w₀.keyRegistry
  stored : ∃ request, w.deletionRequests.lookup id = some request ∧ request.status ≠ .shredRequested ∧
    request.userId = subject.userId ∧ request.tenantId = subject.tenantId
  read (t : ℕ) (snapshot : DeletionRequest) : (handlers.known t log).request = some snapshot →
    snapshot.deletionRequestId = id ∧ snapshot.status ≠ .shredRequested
  unclaimed (t : ℕ) : (handlers.known t log).claim ≠ some .keyDestroyed

lemma Stranded.not_shred (h : Stranded id w₀ subject w log)
    (ha : Allowed handlers Keyed (recovering id) w log a w') (u t id' : String) : a.op ≠ .shredKeyForUser u t id' := by
  intro hop
  have hallowed := ha.allowed
  rw [hop] at hallowed
  obtain ⟨snapshot, -, hc, -⟩ := hallowed
  exact h.unclaimed a.tid hc

lemma Stranded.not_shredRequested (h : Stranded id w₀ subject w log)
    (ha : Allowed handlers Keyed (recovering id) w log a w') (hl : w.deletionRequests.lookup id = some request) :
    statusOf id (.act a) ≠ some .shredRequested := by
  intro hs
  rw [statusOf_eq] at hs
  cases hcl : a.op.isClaim with
  | true =>
    obtain ⟨snapshot, -, -, -, hv⟩ := claim_cases ha hl hs hcl
    simp [not_isValidTransition_shredRequested] at hv
  | false =>
    obtain ⟨snapshot, -, hw⟩ := write_cases ha hs hcl
    cases hw with
    | keyRollback hc => exact h.unclaimed a.tid hc

lemma Stranded.act (h : Stranded id w₀ subject w log)
    (ha : Allowed handlers Keyed (recovering id) w log a w') : Stranded id w₀ subject w' (.act a :: log) where
  keys := by
    rw [← h.keys]
    rcases exec_cases ha.exec with ⟨-, answer, r, hr, -⟩ | ⟨-, rfl⟩
    · exact run_keyRegistry hr (h.not_shred ha)
    · rfl
  stored := by
    obtain ⟨request, hl, hs, hu, ht⟩ := h.stored
    refine ⟨_, exec_lookup ha.exec hl, ?_, by rw [after_userId, hu], by rw [after_tenantId, ht]⟩
    rw [status_after]
    have hne := h.not_shredRequested ha hl
    cases hst : statusOf id (.act a) with
    | none => exact hs
    | some newStatus =>
      rw [hst] at hne
      exact fun he => hne (congrArg some he)
  read t snapshot hr := by
    rcases request_after ha hr with hb | ⟨hop, hl⟩
    · exact h.read t snapshot hb
    · have hg := ha.guard
      simp only [recovering, Op.Recovers, hop, Op.advances, decide_eq_true_eq] at hg
      obtain ⟨request, hl', hs, -⟩ := h.stored
      rw [hg.1, hl'] at hl
      obtain rfl := Option.some.inj hl
      exact ⟨hg.1, hs⟩
  unclaimed t hc := by
    by_cases ht : a.tid = t
    · subst ht
      rw [known_act_self] at hc
      rcases next_claim hc with ⟨-, hb, -⟩ | ⟨id', allowedFromStatuses, hop, -⟩
      · exact h.unclaimed a.tid hb
      · have hallowed := ha.allowed
        rw [hop] at hallowed
        obtain ⟨snapshot, ⟨hr, -⟩, -, -, hv⟩ := hallowed
        exact (h.read a.tid snapshot hr).2 (eq_of_isValidTransition_keyDestroyed hv)
    · rw [known_act_ne ht] at hc
      exact h.unclaimed t hc

lemma stranded_inductive : Inductive handlers Keyed (@recovering d id) (Stranded id w₀ subject) where
  act h ha := h.act ha
  env _ _ _ hg := hg.elim

-- Only `KEY_DESTROYED` shreds, and only `SHRED_REQUESTED` leads there.
lemma not_recoverable (hw : Keyed w) (hl : w.deletionRequests.lookup id = some request)
    (hs : request.status ≠ .shredRequested) (hk : keyGone w request = false) : ¬ Recoverable d id w := by
  rintro ⟨c, hr, request', hl', -, hk'⟩
  have hstart : Stranded (d := d) id w request w [] :=
    ⟨rfl, ⟨request, hl, hs, rfl, rfl⟩, fun t snapshot h => by simp [known, handlers] at h,
      fun t => by simp [known, handlers]⟩
  have hi : Stranded id w request c.state c.log :=
    stranded_inductive.run (handlers_governs d) (conforms_initial hw) hstart hr
  obtain ⟨request'', hl'', -, hu, ht⟩ := hi.stored
  obtain rfl := Option.some.inj (hl'.symm.trans hl'')
  have hback : keyGone w request = true := keyGone_congr hk' hi.keys.symm hu.symm ht.symm
  rw [hk] at hback
  contradiction

end Stranded

section Runs

def hasEnded {α : Type} : Run α → Bool
  | .done _ => true
  | _ => false

/-- A request whose key was never touched is declared a partial failure. -/
def failedUnshredded : List VaultEvent :=
  requested ++ [.start (.advanceRequest "request" .cascadePartialFailure "operation")] ++ steps 1 4

end Runs

end ChameleonVault.Deletion
