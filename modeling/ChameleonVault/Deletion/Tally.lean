import ChameleonVault.Concurrency.Growing
import ChameleonVault.Concurrency.Lenient
import ChameleonVault.Deletion.Holders
import Mathlib.Data.Finset.Insert

/-! The counts that a cascade records are those that its own attempts reported: a success without
findings is recorded only where an attempt of the same call succeeded and reported none. -/

namespace ChameleonVault.Deletion

open Concurrency Interleaving Discipline Call DeletionRequestService

/-- The places at which an attempt of the call succeeded and reported nothing found. -/
abbrev Places := Finset (String × String)

def Places.note (id destination : String) (reported : Option ℕ) (q : Places) : Places :=
  if reported = some 0 then insert (id, destination) q else q

def WipeResult.reported (result : WipeResult) : Option ℕ := if result.success then result.recordsFound else none

def tally : Discipline Op (fun op => Except String op.Res) Places where
  start := ∅
  allowed q
    | .updateJanitorWipeStatus id destination .succeeded details =>
      foundNothing details = true → (id, destination) ∈ q
    | _ => True
  next q
    | .wipe id destination _ _, .ok result => q.note id destination (WipeResult.reported result)
    | .runQuery id destination _, .ok affected => q.note id destination (some affected)
    | _, _ => q
  possible _ _ := True

section Notes

variable {id destination : String} {reported : Option ℕ} {q q' : Places}

lemma subset_note : q ≤ q.note id destination reported := by
  simp only [Places.note]
  split
  · exact Finset.subset_insert _ _
  · exact le_rfl

lemma note_mono (h : q ≤ q') : q.note id destination reported ≤ q'.note id destination reported := by
  simp only [Places.note]
  split
  · exact Finset.insert_subset_insert _ h
  · exact h

lemma mem_note (h : reported = some 0) : (id, destination) ∈ q.note id destination reported := by
  simp [Places.note, h]

lemma tally_growing : Growing tally where
  allowed {q q' op} hle h := by
    cases op
    case updateJanitorWipeStatus id destination status details =>
      cases status
      case succeeded => exact fun hn => hle (h hn)
      all_goals trivial
    all_goals trivial
  next {q q' op r} hle := by
    cases op
    case wipe =>
      cases r
      · exact hle
      · exact note_mono hle
    case runQuery =>
      cases r
      · exact hle
      · exact note_mono hle
    all_goals exact hle
  grows q op r := by
    cases op
    case wipe =>
      cases r
      · exact le_rfl
      · exact subset_note
    case runQuery =>
      cases r
      · exact le_rfl
      · exact subset_note
    all_goals exact le_rfl

end Notes

section Attempts

variable {id userId tenantId : String} {q : Places}

lemma recordEvent_tally (event : LineageEvent) : (quietly (recordEvent event : Service Unit)).run.Uses tally.Neutral :=
  uses_quietly (uses_perform fun _ => ⟨trivial, fun _ => rfl⟩)

lemma attempt_tally (destination : String) :
    tally.Keeps q (JanitorService.attempt id destination userId tenantId)
      (fun response q => response.success = true → response.recordsFound = some 0 → (id, destination) ∈ q)
      (fun _ _ => True) := by
  apply Keeps.tryCatch
  refine Keeps.perform trivial (fun response _ hs hf => ?_) (fun err _ => ?_)
  · exact mem_note (by simp [WipeResult.reported, hs, hf])
  · exact Keeps.pure fun hs => by cases hs

lemma wipeAttempts_tally (destination : String) (left attempts : ℕ) (lastError : String) :
    tally.Keeps q (JanitorService.wipeAttempts id userId tenantId destination left attempts lastError)
      (fun outcome q => outcome.success = true → outcome.recordsFound = some 0 → (id, destination) ∈ q)
      (fun _ _ => True) := by
  induction left generalizing attempts lastError q with
  | zero => exact Keeps.pure fun hs => by cases hs
  | succ left ih =>
    apply Keeps.bind
    refine .neutral (recordEvent_tally _) (fun _ => ?_) (fun _ => trivial)
    apply Keeps.bind
    refine Keeps.mono (attempt_tally destination) (fun response q hr => ?_) (fun _ _ _ => trivial)
    split
    · rename_i hs
      exact Keeps.pure fun _ hf => hr hs hf
    · dsimp only
      split
      · exact ih _ _
      · exact Keeps.pure fun hs => by cases hs

/-- A wipe that is told as complete without findings was so reported. -/
def Told (id : String) (result : JanitorTask) (q : Places) : Prop :=
  result.status = .complete → result.recordsFound = some 0 → (id, result.destination) ∈ q

lemma told_monotone (id : String) (result : JanitorTask) : Monotone (Told id result) :=
  fun _ _ hle h hs hf => hle (h hs hf)

lemma cleanup_tally (task : JanitorTask) (q : Places) :
    tally.Keeps q (JanitorService.cleanup id userId tenantId task) (Told id) (fun _ _ => True) := by
  rw [JanitorService.cleanup]
  split
  · apply Keeps.bind
    refine Keeps.mono (wipeAttempts_tally task.destination _ _ _) (fun outcome q ho => ?_) (fun _ _ _ => trivial)
    apply Keeps.bind
    refine .neutral (recordEvent_tally _) (fun _ => ?_) (fun _ => trivial)
    split
    · rename_i hs
      exact Keeps.pure fun _ hf => ho hs hf
    · apply Keeps.bind
      refine .neutral ?_ (fun _ => Keeps.pure fun hs => by cases hs) (fun _ => trivial)
      refine uses_tryCatch (uses_perform fun _ => ⟨trivial, fun _ => rfl⟩) fun _ => ?_
      exact uses_bind (uses_orThrow _) fun _ => uses_pure _
  · exact Keeps.pure fun hs => by cases hs

lemma processCleanup_tally (q : Places) :
    tally.Keeps q (JanitorService.processCleanup id userId tenantId) (fun results q => ∀ r ∈ results, Told id r q)
      (fun _ _ => True) := by
  apply Keeps.bind
  refine .neutral ?_ (fun tasks => ?_) (fun _ => trivial)
  · exact uses_bind (uses_perform fun _ => ⟨trivial, fun _ => rfl⟩) fun _ => uses_pure _
  · exact .each_growing tally_growing (told_monotone id) cleanup_tally tasks

/-- A statement that is told to have affected no row was so reported. -/
def ToldRows (id suffix : String) (result : SourceRedactionResult) (q : Places) : Prop :=
  result.success = true → result.rowsAffected = some 0 → (id, result.resourceId ++ suffix) ∈ q

lemma toldRows_monotone (id suffix : String) (result : SourceRedactionResult) : Monotone (ToldRows id suffix result) :=
  fun _ _ hle h hs hf => hle (h hs hf)

lemma statements_tally (suffix : String) (query : PiiRegistryEntry → Except String Query)
    (resources : List PiiRegistryEntry) (q : Places) :
    tally.Keeps q (each (SourceRedactionService.resultOf (SourceRedactionService.runStatement id suffix query)) resources)
      (fun results q => ∀ r ∈ results, ToldRows id suffix r q) (fun _ _ => True) := by
  refine .each_growing tally_growing (toldRows_monotone id suffix) (fun resource q => ?_) resources
  apply Keeps.tryCatch
  apply Keeps.bind
  rw [SourceRedactionService.runStatement]
  split
  · refine Keeps.perform trivial (fun affected _ => ?_) (fun _ _ => ?_)
    · exact Keeps.pure fun _ hf => mem_note hf
    · exact Keeps.pure fun hs => by cases hs
  · exact Keeps.throw (Keeps.pure fun hs => by cases hs)

end Attempts

section Records

variable {id : String} {q : Places}

lemma recordWipe_tally {result : JanitorTask} (h : Told id result q) :
    (DeletionRequestService.recordWipe id result).run.Uses (tally.NeutralAt q) := by
  refine uses_quietly (uses_perform ⟨?_, fun _ => rfl⟩)
  by_cases hs : result.status = .complete
  · simp only [hs, if_true]
    intro hf
    exact h hs (by simpa [foundNothing] using hf)
  · simp only [hs, if_false]
    trivial

lemma recordStatement_tally {suffix : String} {result : SourceRedactionResult} (h : ToldRows id suffix result q) :
    (recordStatement id suffix result).run.Uses (tally.NeutralAt q) := by
  refine uses_quietly (uses_perform ⟨?_, fun _ => rfl⟩)
  by_cases hs : result.success = true
  · simp only [hs, if_true]
    intro hf
    exact h hs (by simpa [foundNothing] using hf)
  · simp only [hs]
    trivial

lemma tally_of_progressing (op : Op) (h : Progressing op) (q : Places) : tally.allowed q op := by
  obtain ⟨-, hr⟩ := h
  cases op <;> first | contradiction | trivial

variable (d : Deployment) (operationId : String)

lemma advanceRequest_tally (newStatus : Status) (failed : List String) :
    tally.Lenient (advanceRequest d id newStatus operationId failed) :=
  .of_always ((advanceRequest_progressing d id newStatus operationId failed).mono tally_of_progressing)

lemma finishCascade_tally {results : CascadeResults} (hj : ∀ r ∈ results.janitorResults, Told id r q)
    (hr : ∀ r ∈ results.redactionResults, ToldRows id redactInPlaceSuffix r q)
    (hc : ∀ r ∈ results.encryptedCopyResults, ToldRows id encryptedCopySuffix r q) :
    tally.Keeps q (finishCascade d id operationId results) (fun _ _ => True) (fun _ _ => True) := by
  apply Keeps.bind
  refine .neutral_at (uses_each_mem fun r hm => recordWipe_tally (hj r hm)) (fun _ => ?_) (fun _ => trivial)
  apply Keeps.bind
  refine .neutral_at (uses_each_mem fun r hm => recordStatement_tally (hr r hm)) (fun _ => ?_) (fun _ => trivial)
  apply Keeps.bind
  refine .neutral_at (uses_each_mem fun r hm => recordStatement_tally (hc r hm)) (fun _ => ?_) (fun _ => trivial)
  exact Lenient.bind (advanceRequest_tally d operationId _ _) (fun _ => .pure ()) q

lemma recoverCascade_tally (err : String) : tally.Lenient (recoverCascade d id operationId err) :=
  .quietly (.bind (advanceRequest_tally d operationId _ _) fun _ => .pure ())

end Records

section Jobs

variable (d : Deployment)

/-- The results of the two kinds of statements, as they were told. -/
def ToldStatements (id : String) (results : List SourceRedactionResult × List SourceRedactionResult) (q : Places) : Prop :=
  (∀ r ∈ results.1, ToldRows id redactInPlaceSuffix r q) ∧ ∀ r ∈ results.2, ToldRows id encryptedCopySuffix r q

lemma toldStatements_monotone (id : String) (results : List SourceRedactionResult × List SourceRedactionResult) :
    Monotone (ToldStatements id results) :=
  fun _ _ hle h => ⟨forall_mem_monotone (toldRows_monotone id _) _ hle h.1, forall_mem_monotone (toldRows_monotone id _) _ hle h.2⟩

lemma statements_awaited {id : String} (userId tenantId : String) (redactionResources encryptedCopyResources : List PiiRegistryEntry)
    (q : Places) : tally.Follows q (Prog.awaitAll (fun r c => .done (.ok (r, c))) (fun err => .done (.error err))
      (SourceRedactionService.redactUserInDeclaredSources id userId tenantId redactionResources).run
      (SourceRedactionService.deleteUserFromEncryptedCopies id userId tenantId encryptedCopyResources).run)
      (onOk (ToldStatements id)) := by
  refine .awaitAll_growing tally_growing (forall_mem_monotone (toldRows_monotone id redactInPlaceSuffix))
    (forall_mem_monotone (toldRows_monotone id encryptedCopySuffix)) (onOk_monotone (toldStatements_monotone id))
    (statements_tally _ _ _ _).onOk (statements_tally _ _ _ _).onOk (fun r c q hr hc => ?_) (fun err q => ?_)
  · intro results hresults
    obtain rfl := Except.ok.inj hresults
    exact ⟨hr, hc⟩
  · exact nofun

lemma ignore_tally {x : Service Unit} {q : Places} (hx : tally.Keeps q x (fun _ _ => True) (fun _ _ => True)) :
    tally.Follows q (DeletionRequestService.ignore x) (fun _ _ => True) :=
  Follows.bind (Follows.mono hx (fun _ _ _ => trivial))

-- The wipes and the statements run beside each other; what each is told stays known until it is recorded.
lemma cascade_tally (id : String) (request : DeletionRequest) (tenantId operationId : String)
    (redactionResources encryptedCopyResources : List PiiRegistryEntry) :
    tally.Follows tally.start
      (cascade d id request tenantId operationId redactionResources encryptedCopyResources) (fun _ _ => True) := by
  refine .awaitAll_growing tally_growing (forall_mem_monotone (told_monotone id)) (toldStatements_monotone id)
    (fun _ _ _ _ h => h) (processCleanup_tally _).onOk (statements_awaited _ _ _ _ _)
    (fun janitorResults r q hj hr => ?_) (fun err q => ignore_tally (recoverCascade_tally d operationId err q))
  apply ignore_tally
  apply Keeps.tryCatch
  exact Keeps.mono (finishCascade_tally d operationId hj hr.1 hr.2) (fun _ _ h => h)
    (fun err q _ => recoverCascade_tally d operationId err q)

lemma tally_of_creation (op : Op) (h : op.isCreation = true) (q : Places) : tally.allowed q op := by
  cases op <;> first | contradiction | trivial

lemma tally_of_work (op : Op) (h : Work op) (q : Places) : tally.allowed q op :=
  tally_of_progressing op (progressing_of_routine (routine_of_work h)) q

lemma tally_follows (j : Job) : tally.Follows tally.start (j.body d) (fun _ _ => True) := by
  cases j with
  | createRequest userId operationId tenantId requestedBy =>
    exact .of_always (uses_ignore (createRequest_uses tally_of_creation tally_of_work))
  | advanceRequest id newStatus operationId =>
    exact Follows.bind (Follows.mono (advanceRequest_tally d operationId newStatus [] _) (fun _ _ _ => trivial))
  | cascade id request tenantId operationId redactionResources encryptedCopyResources =>
    exact cascade_tally d id request tenantId operationId redactionResources encryptedCopyResources

lemma tally_governs : Governs (S := vault d) tally (fun _ => True) where
  body := tally_follows d
  exec _ _ := ⟨trivial, trivial⟩
  env _ _ := trivial

end Jobs

end ChameleonVault.Deletion
