import ChameleonVault.Concurrency.Lenient
import ChameleonVault.Deletion.Holders

/-! The outcomes that a cascade records at the destinations: whose is the one that is stored, and
that no call which has recorded a failure declares the cascade complete. -/

namespace ChameleonVault.Deletion

open Concurrency Interleaving Discipline Call DeletionRequestService

section Discipline

/-- What one call knows: whether it has recorded a failure. -/
def recording : Discipline Op (fun op => Except String op.Res) Bool where
  start := false
  allowed failed
    | .updateDeletionRequestStatus _ .cascadeComplete => failed = false
    | .claimTransition _ _ .cascadeComplete => failed = false
    | _ => True
  next failed
    | .updateJanitorWipeStatus _ _ .failed _, _ => true
    | _, _ => failed
  possible _ _ := True

lemma recording_of_work (op : Op) (h : Work op) : recording.Neutral op := by
  intro q
  cases op <;> first | contradiction | exact ⟨trivial, fun _ => rfl⟩

lemma recording_of_creation (op : Op) (h : op.isCreation = true) : recording.Neutral op := by
  intro q
  cases op <;> first | contradiction | exact ⟨trivial, fun _ => rfl⟩

lemma recording_of_progressing (op : Op) (h : Progressing op) : recording.NeutralAt false op := by
  obtain ⟨-, hr⟩ := h
  refine ⟨?_, fun r => ?_⟩
  · cases op
    case updateDeletionRequestStatus id newStatus => cases newStatus <;> trivial
    case claimTransition id allowedFromStatuses newStatus => cases newStatus <;> trivial
    all_goals trivial
  · cases op <;> first | contradiction | rfl

lemma recording_of_record (op : Op) (h : op.isRecord = true) (q : Bool) : recording.allowed q op := by
  cases op <;> first | contradiction | trivial

lemma recording_succeeded (id destination : String) (details : WipeDetails) :
    recording.Neutral (.updateJanitorWipeStatus id destination .succeeded details) :=
  fun _ => ⟨trivial, fun _ => rfl⟩

variable {id : String} (d : Deployment) (operationId : String)

lemma advanceRequest_recording (newStatus : Status) (failed : List String) :
    recording.Keeps false (advanceRequest d id newStatus operationId failed) (fun _ _ => True) (fun _ _ => True) := by
  have huses := (advanceRequest_progressing d id newStatus operationId failed).mono recording_of_progressing
  have hfollows : recording.Follows false (advanceRequest d id newStatus operationId failed) fun _ _ => True :=
    .of_uses_at huses fun _ => trivial
  refine hfollows.mono ?_
  rintro (_ | _) _ h <;> exact h

lemma partialFailure_lenient (failed : List String) :
    recording.Lenient (advanceRequest d id .cascadePartialFailure operationId failed) :=
  .of_always (advanceToPartialFailure_uses operationId failed (fun _ => trivial) (fun _ _ => trivial)
    (fun _ _ => trivial) (fun _ => trivial))

lemma failedDestinations_eq_nil {results : CascadeResults} (h : results.failedDestinations = []) :
    (∀ r ∈ results.janitorResults, r.status = .complete) ∧ (∀ r ∈ results.redactionResults, r.success = true) ∧
      ∀ r ∈ results.encryptedCopyResults, r.success = true := by
  simp only [CascadeResults.failedDestinations, List.append_eq_nil_iff, List.map_eq_nil_iff, List.filter_eq_nil_iff] at h
  obtain ⟨⟨hj, hr⟩, hc⟩ := h
  exact ⟨fun r hm => by simpa using hj r hm, fun r hm => by simpa using hr r hm, fun r hm => by simpa using hc r hm⟩

-- A cascade that declares itself complete has recorded successes only; one that has recorded a
-- failure goes on to the partial failure.
lemma finishCascade_recording (results : CascadeResults) :
    recording.Keeps false (finishCascade d id operationId results) (fun _ _ => True) (fun _ _ => True) := by
  by_cases h : results.failedDestinations = []
  · obtain ⟨hj, hr, hc⟩ := failedDestinations_eq_nil h
    have wipes : (each (DeletionRequestService.recordWipe id) results.janitorResults).run.Uses recording.Neutral := by
      refine uses_each_mem fun r hm => uses_quietly (uses_perform ?_)
      rw [if_pos (hj r hm)]
      exact recording_succeeded _ _ _
    have statements {suffix : String} {results : List SourceRedactionResult} (hs : ∀ r ∈ results, r.success = true) :
        (each (recordStatement id suffix) results).run.Uses recording.Neutral := by
      refine uses_each_mem fun r hm => uses_quietly (uses_perform ?_)
      rw [if_pos (hs r hm)]
      exact recording_succeeded _ _ _
    apply Keeps.bind
    refine .neutral wipes (fun _ => ?_) (fun _ => trivial)
    apply Keeps.bind
    refine .neutral (statements hr) (fun _ => ?_) (fun _ => trivial)
    apply Keeps.bind
    refine .neutral (statements hc) (fun _ => ?_) (fun _ => trivial)
    apply Keeps.bind
    exact Keeps.mono (advanceRequest_recording d operationId _ _) (fun _ _ _ => Keeps.pure trivial) (fun _ _ _ => trivial)
  · have statements (suffix : String) (results : List SourceRedactionResult) :
        recording.Lenient (each (recordStatement id suffix) results) :=
      .of_always (uses_each (fun r => recordStatement_uses suffix r fun _ _ => recording_of_record _ rfl) results)
    have hfinish : recording.Lenient (finishCascade d id operationId results) := by
      refine .bind (.of_always (uses_each (fun r => recordWipe_uses r fun _ _ => recording_of_record _ rfl) _)) fun _ => ?_
      refine .bind (statements _ _) fun _ => .bind (statements _ _) fun _ => ?_
      rw [if_neg h]
      exact .bind (partialFailure_lenient d operationId _) fun _ => .pure ()
    exact hfinish false

lemma recoverCascade_recording (err : String) : recording.Lenient (recoverCascade d id operationId err) :=
  .quietly (.bind (partialFailure_lenient d operationId _) fun _ => .pure ())

lemma recording_follows (j : Job) : recording.Follows recording.start (j.body d) (fun _ _ => True) := by
  have ignored {α : Type} {q : Bool} {x : Service α} (hx : recording.Keeps q x (fun _ _ => True) (fun _ _ => True)) :
      recording.Follows q (DeletionRequestService.ignore x) (fun _ _ => True) :=
    Follows.bind (Follows.mono hx (fun _ _ _ => trivial))
  cases j with
  | createRequest userId operationId tenantId requestedBy =>
    exact .of_uses (uses_ignore (createRequest_uses recording_of_creation recording_of_work)) (fun _ => trivial)
  | advanceRequest id newStatus operationId => exact ignored (advanceRequest_recording d operationId newStatus [])
  | cascade id request tenantId operationId redactionResources encryptedCopyResources =>
    refine Follows.awaitAll ((processCleanup_work _ _ _).mono recording_of_work) ?_ (fun janitorResults r => ?_)
      (fun err => ?_)
    · exact .awaitAll ((redactUserInDeclaredSources_work _ _ _ _).mono recording_of_work)
        ((deleteUserFromEncryptedCopies_work _ _ _ _).mono recording_of_work) (fun _ _ => trivial) (fun _ => trivial)
    · exact ignored (Keeps.tryCatch (Keeps.mono (finishCascade_recording d operationId _) (fun _ _ _ => trivial)
        (fun err q _ => recoverCascade_recording d operationId err q)))
    · exact ignored (recoverCascade_recording d operationId err false)

lemma recording_governs (d : Deployment) : Governs (S := vault d) recording (fun _ => True) where
  body := recording_follows d
  exec _ _ := ⟨trivial, trivial⟩
  env _ _ := trivial

end Discipline

section Recorders

variable {d : Deployment} {guard : (vault d).Guard} {w w' : World} {log : (vault d).Log} {a : (vault d).Action}
  {id destination : String} {request : DeletionRequest} {t : ℕ}

/-- The call whose outcome for the destination was stored last. -/
def lastRecorder (id destination : String) : (vault d).Log → Option ℕ
  | [] => none
  | .env _ :: log => lastRecorder id destination log
  | .act a :: log =>
    match changeOf id (.act a) with
    | some (.wipe destination' _ _) => if destination' = destination then some a.tid else lastRecorder id destination log
    | _ => lastRecorder id destination log

structure Recorders (id : String) (request : DeletionRequest) (log : (vault d).Log) : Prop where
  distinct : request.WipesDistinct
  stored (destination : String) (wipe : JanitorWipe) : request.wipe destination = some wipe → isRecorded wipe ∧
    ∃ t, lastRecorder id destination log = some t ∧ (wipe.status = .failed → recording.known t log = true)

lemma recording_known_kept (h : recording.known t log = true) : recording.known t (.act a :: log) = true := by
  rcases known_act_cases (D := recording) a t log with hk | ⟨-, hk⟩
  · rw [hk, h]
  · rw [hk, h]
    obtain ⟨u, op, choice, reply⟩ := a
    cases op
    case updateJanitorWipeStatus id destination status details => cases status <;> rfl
    all_goals rfl

lemma recording_known_failed {details : WipeDetails} (h : changeOf id (.act a) = some (.wipe destination .failed details)) :
    recording.known a.tid (.act a :: log) = true := by
  obtain ⟨he, -⟩ := changeOf_edit h
  rw [known_act_self]
  obtain ⟨u, op, choice, reply⟩ := a
  cases op <;> cases he
  rfl

lemma lastRecorder_other (h : ∀ status details, changeOf id (.act a) ≠ some (.wipe destination status details)) :
    lastRecorder id destination (.act a :: log) = lastRecorder id destination log := by
  simp only [lastRecorder]
  split
  · rename_i destination' status details hc
    have hne : destination' ≠ destination := by
      rintro rfl
      exact h status details hc
    rw [if_neg hne]
  · rfl

lemma Recorders.act (h : Recorders id request log) (ht : Touch guard id w log a w' request) :
    Recorders id (Change.after w.clock (changeOf id (.act a)) request) (.act a :: log) := by
  have kept {destination : String} {wipe : JanitorWipe} (hw : request.wipe destination = some wipe)
      (ho : ∀ status details, changeOf id (.act a) ≠ some (.wipe destination status details)) : isRecorded wipe ∧
      ∃ t, lastRecorder id destination (.act a :: log) = some t ∧
        (wipe.status = .failed → recording.known t (.act a :: log) = true) := by
    obtain ⟨hrecorded, t, hl, hf⟩ := h.stored destination wipe hw
    exact ⟨hrecorded, t, (lastRecorder_other ho).trans hl, fun hs => recording_known_kept (hf hs)⟩
  refine ⟨?_, fun destination wipe hw => ?_⟩
  · rcases changeOf id (.act a) with _ | (newStatus | fields | ⟨destination, status, details⟩)
    · exact h.distinct
    · exact h.distinct
    · exact h.distinct
    · exact h.distinct.writeWipe _
  · cases hc : changeOf id (.act a) with
    | none =>
      rw [hc] at hw
      exact kept hw (by simp [hc])
    | some change =>
      rw [hc] at hw
      cases change with
      | status newStatus => exact kept hw (by simp [hc])
      | attach fields => exact kept hw (by simp [hc])
      | wipe destination' status details =>
        by_cases hd : destination' = destination
        · subst hd
          obtain rfl := Option.some.inj ((wipe_writeWipe_self _ request).symm.trans hw)
          refine ⟨ht.wipe hc, a.tid, by simp [lastRecorder, hc], ?_⟩
          rintro rfl
          exact recording_known_failed hc
        · have hw : request.wipe destination = some wipe := (wipe_writeWipe_ne hd request).symm.trans hw
          refine kept hw fun status' details' hc' => hd ?_
          rw [hc] at hc'
          cases hc'
          rfl

lemma Recorders.new {userId tenantId : String} {requestedBy : Option String} {now : KeyRegistry.Date} :
    Recorders id (.new userId id tenantId requestedBy now) log :=
  ⟨List.nodup_nil, fun _ _ hw => by contradiction⟩

lemma Recorders.env {e : Env} (h : Recorders id request log) : Recorders id request (.env e :: log) := ⟨h.distinct, h.stored⟩

/-- Whether the call wrote the entry that is stored for the destination. -/
def recordedBy (id : String) (request : DeletionRequest) (log : (vault d).Log) (t : ℕ) (destination : String) : Bool :=
  (request.wipe destination).isSome && lastRecorder id destination log = some t

lemma Recorders.succeeded (h : Recorders id request log) (hclean : recording.known t log = false)
    (hr : recordedBy id request log t destination = true) :
    ∃ wipe, request.wipe destination = some wipe ∧ wipe.status = .succeeded := by
  simp only [recordedBy, Bool.and_eq_true, decide_eq_true_eq] at hr
  obtain ⟨wipe, hw⟩ := Option.isSome_iff_exists.mp hr.1
  obtain ⟨hrecorded, u, hl, hf⟩ := h.stored destination wipe hw
  obtain rfl := Option.some.inj (hl.symm.trans hr.2)
  refine ⟨wipe, hw, hrecorded.resolve_right fun hs => ?_⟩
  rw [hf hs] at hclean
  contradiction

lemma clean_of_complete {guard : (vault d).Guard} (h : within recording guard w log (.act a))
    (hs : statusOf id (.act a) = some .cascadeComplete) : recording.known a.tid log = false := by
  obtain ⟨-, hallowed, -⟩ := within_of_act h
  obtain ⟨he, -⟩ := changeOf_edit (statusOf_eq.mp hs)
  obtain ⟨t, op, choice, reply⟩ := a
  rcases edit_status he with ⟨allowedFromStatuses, rfl⟩ | rfl
  · exact hallowed
  · exact hallowed

end Recorders

end ChameleonVault.Deletion
