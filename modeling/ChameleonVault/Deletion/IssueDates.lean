import ChameleonVault.Concurrency.Lenient
import ChameleonVault.Deletion.History
import ChameleonVault.Deletion.Issuing

/-! When a certificate was issued: the date is read after the upload, by a call that had found the request. -/

namespace ChameleonVault.Deletion

open Concurrency Interleaving Discipline Call DeletionRequestService
open KeyRegistry (Date)

variable {d : Deployment} {w w' : World} {log : (vault d).Log} {a : (vault d).Action} {id : String}
  {request : DeletionRequest}

section Lenient

variable {Q : Type} {D : Discipline Op (fun op => Except String op.Res) Q}

variable (d D) in
/-- Only what surrounds an issuing is held to the discipline. -/
structure Attaches : Prop where
  routine (op : Op) : Routine op → ∀ q, D.allowed q op
  work (op : Op) : Work op → D.Neutral op
  creation (op : Op) : op.isCreation = true → ∀ q, D.allowed q op
  record (op : Op) : op.isRecord = true → ∀ q, D.allowed q op
  issue (id operationId : String) : D.Lenient (advanceToCertificateIssued d id operationId)

lemma Attaches.of_routine {α : Type} (h : Attaches d D) {x : Service α} (hx : x.run.Uses Routine) : D.Lenient x :=
  .of_always (hx.mono h.routine)

lemma Attaches.onCascadeComplete (h : Attaches d D) (operationId : String) :
    D.Lenient (onCascadeComplete d id operationId) :=
  .bind (h.of_routine (uses_perform rfl)) fun _ => h.issue id operationId

lemma Attaches.onCascadePending (h : Attaches d D) (operationId : String) :
    D.Lenient (onCascadePending d id operationId request) := by
  refine .bind (h.of_routine prepareCascadeTrigger_routine) fun trigger => ?_
  cases trigger with
  | shortcutToComplete => exact h.onCascadeComplete operationId
  | planFailed error => exact h.of_routine (advanceToPartialFailure_routine _ _)
  | ready plan => exact h.of_routine (startCascade_routine _ _ _ _)

lemma Attaches.onCascadeInProgress (h : Attaches d D) (operationId : String) :
    D.Lenient (onCascadeInProgress d id operationId request) := by
  refine .bind (h.of_routine prepareCascadeTrigger_routine) fun trigger => ?_
  cases trigger with
  | shortcutToComplete => exact h.onCascadeComplete operationId
  | planFailed error => exact .pure request
  | ready plan => exact h.of_routine (startCascade_routine _ _ _ _)

lemma Attaches.entering (h : Attaches d D) {newStatus : Status} {handler : DeletionRequest → Service DeletionRequest}
    (hh : ∀ request, D.Lenient (handler request)) : D.Lenient (entering id newStatus handler) := by
  refine .bind (h.of_routine (uses_perform rfl)) fun found => ?_
  cases found with
  | none => exact .throw _
  | some request =>
    simp only
    split
    · exact hh request
    · exact .throw _

lemma Attaches.advanceRequest (h : Attaches d D) (newStatus : Status) (operationId : String) (failed : List String) :
    D.Lenient (advanceRequest d id newStatus operationId failed) := by
  cases newStatus with
  | certificateIssued => exact h.issue id operationId
  | shredRequested => exact h.entering fun _ => h.of_routine (uses_bind (uses_perform rfl) (fun _ => uses_pure _))
  | keyDestroyed => exact h.entering fun _ => h.of_routine (onKeyDestroyed_routine _)
  | cascadePending => exact h.entering fun _ => h.onCascadePending operationId
  | cascadeInProgress => exact h.entering fun _ => h.onCascadeInProgress operationId
  | cascadeComplete => exact h.entering fun _ => h.onCascadeComplete operationId
  | cascadePartialFailure => exact h.entering fun _ => h.of_routine (onCascadePartialFailure_routine _ _)

lemma Attaches.finishCascade (h : Attaches d D) (operationId : String) (results : CascadeResults) :
    D.Lenient (finishCascade d id operationId results) := by
  have statements (suffix : String) (results : List SourceRedactionResult) :
      (each (recordStatement id suffix) results).run.Uses fun op => ∀ q, D.allowed q op :=
    uses_each (fun result => recordStatement_uses suffix result fun _ _ => h.record _ rfl) results
  refine .bind (.of_always (uses_each (fun result => recordWipe_uses result fun _ _ => h.record _ rfl) _)) fun _ => ?_
  refine .bind (.of_always (statements _ _)) fun _ => ?_
  refine .bind (.of_always (statements _ _)) fun _ => ?_
  exact .bind (h.advanceRequest _ operationId _) fun _ => .pure ()

lemma Attaches.recoverCascade (h : Attaches d D) (operationId err : String) :
    D.Lenient (recoverCascade d id operationId err) :=
  .quietly (.bind (h.advanceRequest _ operationId _) fun _ => .pure ())

lemma Attaches.body (h : Attaches d D) (j : Job) : D.Follows D.start (j.body d) (fun _ _ => True) := by
  have ignored {α : Type} {q : Q} {x : Service α} (hx : D.Lenient x) :
      D.Follows q (DeletionRequestService.ignore x) (fun _ _ => True) :=
    Follows.bind (Follows.mono (hx q) (fun _ _ _ => trivial))
  cases j with
  | createRequest userId operationId tenantId requestedBy =>
    exact ignored (.of_always (createRequest_uses h.creation fun op hop => h.routine op (routine_of_work hop)))
  | advanceRequest id newStatus operationId => exact ignored (h.advanceRequest newStatus operationId [])
  | cascade id request tenantId operationId redactionResources encryptedCopyResources =>
    refine Follows.awaitAll ((processCleanup_work _ _ _).mono h.work) ?_ (fun janitorResults r => ?_) (fun err => ?_)
    · exact .awaitAll ((redactUserInDeclaredSources_work _ _ _ _).mono h.work)
        ((deleteUserFromEncryptedCopies_work _ _ _ _).mono h.work) (fun _ _ => trivial) (fun _ => trivial)
    · exact ignored (.tryCatch (h.finishCascade operationId _) fun err => h.recoverCascade operationId err)
    · exact ignored (h.recoverCascade operationId err)

end Lenient

section Dating

/-- The request that a call has found, whether it has uploaded a certificate for it, and the date it read last. -/
structure Dating where
  request : Option String := none
  uploaded : Bool := false
  read : Option Date := none

def dating : Discipline Op (fun op => Except String op.Res) Dating where
  start := {}
  allowed q
    | .uploadCertificate _ id _ _ _ _ => q.request = some id
    | .updateDeletionRequestFields id fields => ∀ issuedAt, fields.certificateIssuedAt = some issuedAt →
        q.request = some id ∧ q.uploaded = true ∧ q.read = some issuedAt
    | _ => True
  next q
    | .getDeletionRequest id, .ok (some _) => { request := some id }
    | .uploadCertificate _ _ _ _ _ _, .ok _ => { q with uploaded := true, read := none }
    | .dateNow, .ok now => { q with read := some now }
    | _, _ => q
  possible
    | .getDeletionRequest id, .ok (some request) => request.deletionRequestId = id
    | _, _ => True

lemma dating_of_routine (op : Op) (h : Routine op) (q : Dating) : dating.allowed q op := by
  cases op
  case updateDeletionRequestFields id fields =>
    obtain ⟨hissued, -⟩ : fields.certificateIssuedAt = none ∧ fields.certificateGcsPath = none := of_decide_eq_true h
    intro issuedAt hsome
    rw [hissued] at hsome
    contradiction
  all_goals first | contradiction | trivial

lemma dating_of_work (op : Op) (h : Work op) : dating.Neutral op := by
  intro q
  cases op <;> first | contradiction | exact ⟨trivial, fun _ => rfl⟩

abbrev Serving (id : String) (q : Dating) : Prop := q.request = some id

lemma generateClaims_dating {q : Dating} (hq : Serving id q) (userId tenantId : String)
    (ghostDataSummary : List GhostDataSummary) (known : List String) :
    dating.Keeps q (CertificateSigner.generateClaims id userId tenantId ghostDataSummary known)
      (fun _ => Serving id) (fun _ => Serving id) := by
  apply Keeps.bind
  refine Keeps.perform trivial (fun keyStatus _ => ?_) (fun _ _ => hq)
  apply Keeps.bind
  refine Keeps.perform trivial (fun evidence _ => ?_) (fun _ _ => hq)
  have hq' : Serving id (dating.next (dating.next q _ (.ok keyStatus)) (.signerDeletionRequest id) (.ok evidence)) := hq
  split
  · exact Keeps.throw hq'
  · apply Keeps.bind
    refine Keeps.perform trivial (fun checkedAt _ => ?_) (fun _ _ => hq')
    apply Keeps.bind
    refine Keeps.perform trivial (fun manualEntries _ => ?_) (fun _ _ => hq')
    apply Keeps.bind
    refine Keeps.perform trivial (fun issuedAt _ => ?_) (fun _ _ => hq')
    apply Keeps.bind
    exact Keeps.perform trivial (fun keyFingerprint _ => Keeps.pure hq') (fun _ _ => hq')

lemma issueAndStoreCertificate_dating {q : Dating} (hq : Serving id q) (userId tenantId : String) :
    dating.Keeps q (CertificateService.issueAndStoreCertificate d userId id tenantId)
      (fun _ q => Serving id q ∧ q.uploaded = true) (fun _ _ => True) := by
  apply Keeps.bind
  refine Keeps.perform trivial (fun ghostDataSummary _ => ?_) (fun _ _ => trivial)
  apply Keeps.bind
  refine Keeps.mono (generateClaims_dating hq userId tenantId ghostDataSummary registeredConnectors) ?_
    (fun _ _ _ => trivial)
  intro claims q hq
  apply Keeps.bind
  refine Keeps.perform trivial (fun chained _ => ?_) (fun _ _ => trivial)
  apply Keeps.bind
  refine .neutral ((timestamp_work d _).mono dating_of_work) (fun tsaTimestamp => ?_) (fun _ => trivial)
  apply Keeps.bind
  refine .neutral ((publish_work d _ _).mono dating_of_work) (fun rekorEntry => ?_) (fun _ => trivial)
  exact Keeps.perform hq (fun _ _ => ⟨hq, rfl⟩) (fun _ _ => trivial)

lemma onCertificateIssued_dating {q : Dating} (hq : Serving id q) (hid : request.deletionRequestId = id)
    (operationId : String) : dating.Keeps q (onCertificateIssued d id operationId request) (fun _ _ => True)
      (fun _ _ => True) := by
  apply Keeps.bind
  have hclaim (newStatus : Status) : dating.Keeps q (claimOrLose id request newStatus) (fun _ => Serving id)
      (fun _ _ => True) := by
    apply Keeps.bind
    refine Keeps.perform trivial (fun result _ => ?_) (fun _ _ => trivial)
    cases result with
    | claimed => exact Keeps.pure hq
    | lost current => exact Keeps.pure hq
  refine Keeps.mono (hclaim _) (fun lost q hq => ?_) (fun _ _ _ => trivial)
  cases lost with
  | some current => exact Keeps.pure trivial
  | none =>
    apply Keeps.bind
    suffices h : dating.Keeps q (orRollback id request (CertificateService.issueAndStoreCertificate d request.userId
        request.deletionRequestId request.tenant)) (fun _ q => Serving id q ∧ q.uploaded = true) (fun _ _ => True) from ?_
    · refine Keeps.mono h (fun gcsPath q hq => ?_) (fun _ _ _ => trivial)
      apply Keeps.bind
      refine Keeps.perform trivial (fun now _ => ?_) (fun _ _ => trivial)
      apply Keeps.bind
      refine .neutral ((uses_quietly (recordEvent_work _)).mono dating_of_work) (fun _ => ?_) (fun _ => trivial)
      apply Keeps.bind
      refine Keeps.perform (fun issuedAt hsome => ⟨hq.1, hq.2, ?_⟩) (fun _ _ => Keeps.pure trivial) (fun _ _ => trivial)
      exact hsome
    · rw [hid]
      apply Keeps.tryCatch
      refine Keeps.mono (issueAndStoreCertificate_dating hq _ _) (fun _ _ h => h) (fun err q _ => ?_)
      apply Keeps.bind
      exact Keeps.perform trivial (fun _ _ => Keeps.throw trivial) (fun _ _ => trivial)

lemma dating_attaches : Attaches d dating where
  routine := dating_of_routine
  work := dating_of_work
  creation op h q := by
    cases op <;> first | contradiction | trivial
  record op h q := by
    cases op <;> first | contradiction | trivial
  issue id operationId q := by
    apply Keeps.bind
    refine Keeps.perform trivial (fun found hfound => ?_) (fun _ _ => trivial)
    cases found with
    | none => exact Keeps.throw trivial
    | some request =>
      simp only
      split
      · exact onCertificateIssued_dating rfl hfound operationId
      · exact Keeps.throw trivial

lemma dating_governs (d : Deployment) : Governs (S := vault d) dating Keyed where
  body := dating_attaches.body
  exec {op _ _ _ reply} hw he := by
    refine ⟨?_, hw.exec he⟩
    cases op
    case getDeletionRequest id =>
      have hpossible : handlers.possible (.getDeletionRequest id) reply := exec_possible (d := d) hw he
      rcases reply with e | (_ | request)
      · trivial
      · trivial
      · exact hpossible
    all_goals trivial
  env hw he := hw.of_eq (env_requests he)

end Dating

section Dates

/-- The clock is not set back. -/
def onward : (vault d).Guard := fun w _ e =>
  (match e with
    | .env (.setClock now) => decide (w.clock ≤ now)
    | _ => true) = true

instance onward_decidable : ∀ w log e, Decidable (@onward d w log e) := fun _ _ _ => inferInstanceAs (Decidable (_ = true))

structure Dated (w : World) (log : (vault d).Log) : Prop where
  created {id : String} {request : DeletionRequest} : w.deletionRequests.lookup id = some request →
    request.createdAt ≤ w.clock
  found {t : ℕ} {id : String} : (dating.known t log).request = some id →
    ∃ request, w.deletionRequests.lookup id = some request
  read {t : ℕ} {now : Date} : (dating.known t log).read = some now → now ≤ w.clock
  uploaded {t : ℕ} {id : String} : (dating.known t log).request = some id → (dating.known t log).uploaded = true →
    0 < certificates id log ∧ ∀ now ∈ (dating.known t log).read, ∀ request ∈ w.deletionRequests.lookup id,
      request.createdAt ≤ now
  issued {id : String} {request : DeletionRequest} {issuedAt : Date} : w.deletionRequests.lookup id = some request →
    request.certificateIssuedAt = some issuedAt →
      request.createdAt ≤ issuedAt ∧ issuedAt ≤ w.clock ∧ 0 < certificates id log

lemma uploads_of_ok {userId tenantId uri : String} {chained : ChainedCertificate}
    {tsaTimestamp : Option TsaTimestampInfo} {rekorEntry : Option RekorLogEntryInfo} {t : ℕ} {choice : Outcome}
    (he : Op.exec d (.uploadCertificate userId id chained tenantId tsaTimestamp rekorEntry) choice w = some (.ok uri, w')) :
    uploads id (Entry.act (S := vault d)
      ⟨t, .uploadCertificate userId id chained tenantId tsaTimestamp rekorEntry, choice, .ok uri⟩) = true := by
  obtain ⟨answer, rfl, -⟩ := exec_ok he
  simp [uploads, Op.tookEffect, Op.effective]

/-- What a call knows after a step of its own or of another's. -/
lemma dating_after (ha : Allowed dating Keyed onward w log a w') (t : ℕ) :
    dating.known t (.act a :: log) = dating.known t log ∨
      (∃ id request, dating.known t (.act a :: log) = { request := some id } ∧
        w.deletionRequests.lookup id = some request) ∨
      (∃ id, (dating.known t log).request = some id ∧ uploads id (.act a) = true ∧
        dating.known t (.act a :: log) = { dating.known t log with uploaded := true, read := none }) ∨
      dating.known t (.act a :: log) = { dating.known t log with read := some w.clock } := by
  by_cases ht : a.tid = t
  · subst ht
    rw [known_act_self]
    obtain ⟨t, op, choice, reply⟩ := a
    have he : op.exec d choice w = some (reply, w') := ha.exec
    have hallowed : dating.allowed (dating.known t log) op := ha.allowed
    cases op
    case getDeletionRequest id =>
      rcases reply with e | (_ | request)
      · exact .inl rfl
      · exact .inl rfl
      · obtain ⟨answer, -, hrun⟩ := exec_ok he
        exact .inr (.inl ⟨id, request, rfl, (Prod.mk.inj (Except.ok.inj (Option.some.inj hrun))).1⟩)
    case uploadCertificate userId id chained tenantId tsaTimestamp rekorEntry =>
      cases reply with
      | error e => exact .inl rfl
      | ok uri => exact .inr (.inr (.inl ⟨id, hallowed, uploads_of_ok he, rfl⟩))
    case dateNow =>
      cases reply with
      | error e => exact .inl rfl
      | ok now =>
        obtain ⟨answer, -, hrun⟩ := exec_ok he
        obtain rfl : w.clock = now := (Prod.mk.inj (Except.ok.inj (Option.some.inj hrun))).1
        exact .inr (.inr (.inr rfl))
    all_goals cases reply <;> exact .inl rfl
  · exact .inl (known_act_ne ht log)

@[simp] lemma after_createdAt (now : Date) (change : Option Change) (request : DeletionRequest) :
    (Change.after now change request).createdAt = request.createdAt := by
  rcases change with _ | (_ | _ | _) <;> rfl

lemma lookup_before (he : Op.exec d a.op a.choice w = some (a.reply, w'))
    (hl : w'.deletionRequests.lookup id = some request) :
    (∃ earlier, w.deletionRequests.lookup id = some earlier ∧
        request = Change.after w.clock (changeOf id (.act a)) earlier) ∨
      ∃ userId tenantId requestedBy, request = .new userId id tenantId requestedBy w.clock := by
  cases hearlier : w.deletionRequests.lookup id with
  | none =>
    obtain ⟨-, userId, tenantId, requestedBy, -, hnew⟩ := exec_created he hearlier hl
    exact .inr ⟨userId, tenantId, requestedBy, hnew⟩
  | some earlier =>
    rw [exec_lookup he hearlier] at hl
    exact .inl ⟨earlier, rfl, (Option.some.inj hl).symm⟩

lemma edit_attach {op : Op} {fields : UpdateFields} (h : op.edit = some (id, .attach fields)) :
    op = .updateDeletionRequestFields id fields := by
  cases op <;> cases h
  rfl

/-- A date of issue is kept, or written as the call read it. -/
lemma issuedAt_after (ha : Allowed dating Keyed onward w log a w') {now issuedAt : Date}
    (h : (Change.after now (changeOf id (.act a)) request).certificateIssuedAt = some issuedAt) :
    request.certificateIssuedAt = some issuedAt ∨ (dating.known a.tid log).request = some id ∧
      (dating.known a.tid log).uploaded = true ∧ (dating.known a.tid log).read = some issuedAt := by
  cases hchange : changeOf id (.act a) with
  | none =>
    rw [hchange] at h
    exact .inl h
  | some change =>
    rw [hchange] at h
    cases change with
    | status newStatus => exact .inl h
    | wipe destination status details => exact .inl h
    | attach fields =>
      have hop : a.op = .updateDeletionRequestFields id fields := edit_attach (changeOf_edit hchange).1
      have hallowed := ha.allowed
      rw [hop] at hallowed
      have h : (fields.certificateIssuedAt.orElse fun _ => request.certificateIssuedAt) = some issuedAt := h
      cases hfields : fields.certificateIssuedAt with
      | none =>
        rw [hfields] at h
        exact .inl h
      | some written =>
        rw [hfields] at h
        obtain rfl := Option.some.inj h
        exact .inr (hallowed written hfields)

lemma certificates_le (e : (vault d).Entry) (log : (vault d).Log) : certificates id log ≤ certificates id (e :: log) := by
  rw [certificates_cons]
  omega

lemma Dated.act (h : Dated w log) (ha : Allowed dating Keyed onward w log a w') : Dated w' (.act a :: log) := by
  have hclock : w'.clock = w.clock := exec_clock ha.exec
  have hgrow (id : String) : certificates id log ≤ certificates id (.act a :: log) := certificates_le (.act a) log
  have hfound {id : String} (hf : ∃ request, w.deletionRequests.lookup id = some request) :
      ∃ request, w'.deletionRequests.lookup id = some request := by
    obtain ⟨request, hl⟩ := hf
    exact ⟨_, exec_lookup ha.exec hl⟩
  have hsince {id : String} {now : Date} (hf : ∃ request, w.deletionRequests.lookup id = some request)
      (hb : ∀ request ∈ w.deletionRequests.lookup id, request.createdAt ≤ now) :
      ∀ request ∈ w'.deletionRequests.lookup id, request.createdAt ≤ now := by
    obtain ⟨earlier, hl⟩ := hf
    intro request hr
    rw [exec_lookup ha.exec hl] at hr
    obtain rfl := Option.some.inj hr
    simpa using hb earlier hl
  refine ⟨fun hl => ?_, fun {t id} hr => ?_, fun {t now} hr => ?_, fun {t id} hr hu => ?_, fun {id request issuedAt} hl hi => ?_⟩
  · rw [hclock]
    rcases lookup_before ha.exec hl with ⟨earlier, hearlier, rfl⟩ | ⟨userId, tenantId, requestedBy, rfl⟩
    · simpa using h.created hearlier
    · exact le_refl _
  · rcases dating_after ha t with hk | ⟨id', request, hk, hl⟩ | ⟨id', -, -, hk⟩ | hk <;> rw [hk] at hr
    · exact hfound (h.found hr)
    · obtain rfl := Option.some.inj hr
      exact hfound ⟨request, hl⟩
    · exact hfound (h.found hr)
    · exact hfound (h.found hr)
  · rw [hclock]
    rcases dating_after ha t with hk | ⟨id', request, hk, hl⟩ | ⟨id', -, -, hk⟩ | hk <;> rw [hk] at hr
    · exact h.read hr
    · contradiction
    · contradiction
    · exact (Option.some.inj hr).ge
  · rcases dating_after ha t with hk | ⟨id', request, hk, hl⟩ | ⟨id', hid, hup, hk⟩ | hk <;> rw [hk] at hr hu ⊢
    · obtain ⟨hpos, hbound⟩ := h.uploaded hr hu
      exact ⟨hpos.trans_le (hgrow id), fun now hnow => hsince (h.found hr) (hbound now hnow)⟩
    · contradiction
    · obtain rfl := Option.some.inj (hid.symm.trans hr)
      refine ⟨?_, fun now hnow => ?_⟩
      · rw [certificates_cons, hup]
        exact Nat.succ_pos _
      · contradiction
    · obtain ⟨hpos, -⟩ := h.uploaded hr hu
      refine ⟨hpos.trans_le (hgrow id), fun now hnow => hsince (h.found hr) fun request hl => ?_⟩
      obtain rfl := Option.some.inj hnow
      exact h.created hl
  · rw [hclock]
    rcases lookup_before ha.exec hl with ⟨earlier, hearlier, rfl⟩ | ⟨userId, tenantId, requestedBy, rfl⟩
    · rw [after_createdAt]
      rcases issuedAt_after ha hi with hi | ⟨hr, hu, hread⟩
      · obtain ⟨hcreated, hnow, hpos⟩ := h.issued hearlier hi
        exact ⟨hcreated, hnow, hpos.trans_le (hgrow id)⟩
      · obtain ⟨hpos, hbound⟩ := h.uploaded hr hu
        exact ⟨hbound issuedAt hread earlier hearlier, h.read hread, hpos.trans_le (hgrow id)⟩
    · contradiction

lemma clock_onward {e : Env} {log : (vault d).Log} (he : e.step w = some w') (hg : onward w log (.env e)) :
    w.clock ≤ w'.clock := by
  rw [env_clock he]
  cases e with
  | tick ms => exact Nat.le_add_right _ _
  | setClock now => exact of_decide_eq_true hg
  | _ => exact le_refl _

lemma dated_inductive : Inductive dating Keyed (@onward d) Dated where
  act h ha := h.act ha
  env {w w' log e} h _ he hg := by
    have hclock := clock_onward he hg
    have hsame := env_requests he
    have hcert (id : String) : certificates id log ≤ certificates id (.env e :: log) := certificates_le (.env e) log
    refine ⟨fun hl => ?_, fun {t id} hr => ?_, fun hr => (h.read hr).trans hclock, fun {t id} hr hu => ?_, fun hl hi => ?_⟩
    · rw [hsame] at hl
      exact (h.created hl).trans hclock
    · rw [hsame]
      exact h.found hr
    · rw [hsame]
      obtain ⟨hpos, hbound⟩ := h.uploaded hr hu
      exact ⟨hpos.trans_le (hcert id), hbound⟩
    · rw [hsame] at hl
      obtain ⟨hcreated, hnow, hpos⟩ := h.issued hl hi
      exact ⟨hcreated, hnow.trans hclock, hpos.trans_le (hcert _)⟩

lemma dated_reachable {now : Date} {c : (vault d).Config} (hr : Reachable onward (initial (emptyVault now)) c) :
    Dated c.state c.log := by
  refine dated_inductive.run (dating_governs d) (conforms_initial (keyed_emptyVault now)) ?_ hr
  refine ⟨fun hl => ?_, fun {t id} hr => ?_, fun {t now} hr => ?_, fun {t id} hr => ?_, fun hl => ?_⟩
  · simp [initial, emptyVault] at hl
  · simp [initial, known, dating] at hr
  · simp [initial, known, dating] at hr
  · simp [initial, known, dating] at hr
  · simp [initial, emptyVault] at hl

end Dates

end ChameleonVault.Deletion
