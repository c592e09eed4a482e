import ChameleonVault.KeyRegistry.KeyMetadata

/-! Deletion requests as stored, the table of their transitions, and what each write of the
repository does to one document. -/

namespace ChameleonVault.Deletion

open KeyRegistry (Date arrayUnion)

inductive Status where
  | shredRequested | keyDestroyed | cascadePending | cascadeInProgress | cascadeComplete
  | cascadePartialFailure | certificateIssued
  deriving DecidableEq, Repr

def Status.name : Status → String
  | .shredRequested => "SHRED_REQUESTED"
  | .keyDestroyed => "KEY_DESTROYED"
  | .cascadePending => "CASCADE_PENDING"
  | .cascadeInProgress => "CASCADE_IN_PROGRESS"
  | .cascadeComplete => "CASCADE_COMPLETE"
  | .cascadePartialFailure => "CASCADE_PARTIAL_FAILURE"
  | .certificateIssued => "CERTIFICATE_ISSUED"

inductive WipeStatus where
  | pending | inProgress | succeeded | failed | dlq
  deriving DecidableEq, Repr

/-- The details that the cascade records; an undefined one is not stored. -/
structure WipeDetails where
  attempts : Option ℕ := none
  recordsFound : Option ℕ := none
  rowsAffected : Option ℕ := none
  error : Option String := none
  deriving DecidableEq

structure JanitorWipe where
  destination : String
  status : WipeStatus
  updatedAt : Date
  details : WipeDetails
  deriving DecidableEq

structure StatusEntry where
  status : Status
  timestamp : Date
  deriving DecidableEq

structure DeletionRequest where
  deletionRequestId : String
  tenantId : Option String
  userId : String
  status : Status
  createdAt : Date
  statusHistory : List StatusEntry
  janitorWipes : List JanitorWipe
  keyDestroyedAt : Option Date := none
  cascadeInitiatedAt : Option Date := none
  certificateIssuedAt : Option Date := none
  certificateGcsPath : Option String := none
  requestedBy : Option String := none
  deriving DecidableEq

def defaultTenant : String := "default-tenant"

def DeletionRequest.tenant (request : DeletionRequest) : String :=
  (KeyRegistry.truthy request.tenantId).getD defaultTenant

def transitions : Status → List Status
  | .shredRequested => [.keyDestroyed, .cascadePartialFailure]
  | .keyDestroyed => [.cascadePending, .cascadePartialFailure]
  | .cascadePending => [.cascadeInProgress, .cascadeComplete, .cascadePartialFailure]
  | .cascadeInProgress => [.cascadeComplete, .cascadePartialFailure]
  | .cascadePartialFailure => [.cascadeInProgress]
  | .cascadeComplete => [.certificateIssued, .cascadePartialFailure]
  | .certificateIssued => []

def isValidTransition (currentStatus newStatus : Status) : Bool :=
  newStatus ∈ transitions currentStatus

lemma eq_of_isValidTransition_keyDestroyed {s : Status} (h : isValidTransition s .keyDestroyed = true) :
    s = .shredRequested := by
  cases s <;> first | rfl | contradiction

lemma eq_of_isValidTransition_certificateIssued {s : Status}
    (h : isValidTransition s .certificateIssued = true) : s = .cascadeComplete := by
  cases s <;> first | rfl | contradiction

lemma not_isValidTransition_shredRequested (s : Status) : isValidTransition s .shredRequested = false := by
  cases s <;> rfl

lemma not_isValidTransition_from_certificateIssued (s : Status) :
    isValidTransition .certificateIssued s = false := by
  cases s <;> rfl

structure UpdateFields where
  keyDestroyedAt : Option Date := none
  cascadeInitiatedAt : Option Date := none
  certificateIssuedAt : Option Date := none
  certificateGcsPath : Option String := none
  deriving DecidableEq

namespace DeletionRequest

def new (userId operationId tenantId : String) (requestedBy : Option String) (now : Date) : DeletionRequest where
  deletionRequestId := operationId
  tenantId := some tenantId
  userId := userId
  status := .shredRequested
  createdAt := now
  statusHistory := [⟨.shredRequested, now⟩]
  janitorWipes := []
  requestedBy := requestedBy

def isActive (request : DeletionRequest) : Bool :=
  request.status ∈ [.shredRequested, .keyDestroyed, .cascadePending, .cascadeInProgress, .cascadePartialFailure]

def writeStatus (newStatus : Status) (now : Date) (request : DeletionRequest) : DeletionRequest :=
  { request with
    status := newStatus
    statusHistory := arrayUnion request.statusHistory ⟨newStatus, now⟩ }

def writeFields (fields : UpdateFields) (request : DeletionRequest) : DeletionRequest :=
  { request with
    keyDestroyedAt := fields.keyDestroyedAt.orElse fun _ => request.keyDestroyedAt
    cascadeInitiatedAt := fields.cascadeInitiatedAt.orElse fun _ => request.cascadeInitiatedAt
    certificateIssuedAt := fields.certificateIssuedAt.orElse fun _ => request.certificateIssuedAt
    certificateGcsPath := fields.certificateGcsPath.orElse fun _ => request.certificateGcsPath }

/-- The entry of a destination is replaced where it stands, a new one goes to the end. -/
def recordWipe (wipe : JanitorWipe) : List JanitorWipe → List JanitorWipe
  | [] => [wipe]
  | w :: wipes => if w.destination = wipe.destination then wipe :: wipes else w :: recordWipe wipe wipes

def writeWipe (wipe : JanitorWipe) (request : DeletionRequest) : DeletionRequest :=
  { request with janitorWipes := recordWipe wipe request.janitorWipes }

def wipe (request : DeletionRequest) (destination : String) : Option JanitorWipe :=
  request.janitorWipes.find? fun w => w.destination = destination

end DeletionRequest

lemma mem_recordWipe {w wipe : JanitorWipe} {wipes : List JanitorWipe}
    (h : w ∈ DeletionRequest.recordWipe wipe wipes) : w = wipe ∨ w ∈ wipes := by
  induction wipes with
  | nil => exact .inl (List.mem_singleton.mp h)
  | cons v wipes ih =>
    simp only [DeletionRequest.recordWipe] at h
    split at h
    · rcases List.mem_cons.mp h with h | h
      · exact .inl h
      · exact .inr (List.mem_cons_of_mem _ h)
    · rcases List.mem_cons.mp h with h | h
      · exact .inr (h ▸ List.mem_cons_self)
      · exact (ih h).imp id (List.mem_cons_of_mem _)

lemma mem_of_wipe {request : DeletionRequest} {destination : String} {wipe : JanitorWipe}
    (h : request.wipe destination = some wipe) : wipe ∈ request.janitorWipes ∧ wipe.destination = destination := by
  have hd := List.find?_some h
  exact ⟨List.mem_of_find?_eq_some h, of_decide_eq_true hd⟩

lemma wipe_writeWipe_self (wipe : JanitorWipe) (request : DeletionRequest) :
    (request.writeWipe wipe).wipe wipe.destination = some wipe := by
  simp only [DeletionRequest.wipe, DeletionRequest.writeWipe]
  induction request.janitorWipes with
  | nil => simp [DeletionRequest.recordWipe]
  | cons v wipes ih =>
    simp only [DeletionRequest.recordWipe]
    split
    · simp
    · rename_i hv
      simp [hv, ih]

lemma wipe_writeWipe_ne {wipe : JanitorWipe} {destination : String} (h : wipe.destination ≠ destination)
    (request : DeletionRequest) : (request.writeWipe wipe).wipe destination = request.wipe destination := by
  simp only [DeletionRequest.wipe, DeletionRequest.writeWipe]
  induction request.janitorWipes with
  | nil => simp [DeletionRequest.recordWipe, h]
  | cons v wipes ih =>
    simp only [DeletionRequest.recordWipe]
    split
    · rename_i hv
      simp [h, hv]
    · rw [List.find?_cons, List.find?_cons, ih]

lemma recordWipe_destinations (wipe : JanitorWipe) (wipes : List JanitorWipe) :
    (DeletionRequest.recordWipe wipe wipes).map JanitorWipe.destination =
      if wipe.destination ∈ wipes.map JanitorWipe.destination then wipes.map JanitorWipe.destination
      else wipes.map JanitorWipe.destination ++ [wipe.destination] := by
  induction wipes with
  | nil => simp [DeletionRequest.recordWipe]
  | cons v wipes ih =>
    simp only [DeletionRequest.recordWipe]
    by_cases hv : v.destination = wipe.destination
    · simp [hv]
    · simp only [hv, if_false, List.map_cons, ih, List.mem_cons, Ne.symm hv, false_or]
      split <;> rfl

def DeletionRequest.WipesDistinct (request : DeletionRequest) : Prop :=
  (request.janitorWipes.map JanitorWipe.destination).Nodup

lemma DeletionRequest.WipesDistinct.writeWipe {request : DeletionRequest} (h : request.WipesDistinct)
    (wipe : JanitorWipe) : (request.writeWipe wipe).WipesDistinct := by
  simp only [DeletionRequest.WipesDistinct, DeletionRequest.writeWipe, recordWipe_destinations]
  split
  · exact h
  · rename_i hm
    exact List.nodup_append.mpr ⟨h, by simp, by rintro a ha b hb rfl; exact hm (List.mem_singleton.mp hb ▸ ha)⟩

lemma find?_destination {wipes : List JanitorWipe} (h : (wipes.map JanitorWipe.destination).Nodup)
    {w : JanitorWipe} (hw : w ∈ wipes) : wipes.find? (fun v => v.destination = w.destination) = some w := by
  induction wipes with
  | nil => simp at hw
  | cons v wipes ih =>
    rw [List.map_cons, List.nodup_cons] at h
    rcases List.mem_cons.mp hw with rfl | hw
    · simp
    · have hv : v.destination ≠ w.destination := by
        intro he
        exact h.1 (he ▸ List.mem_map_of_mem hw)
      simp [hv, ih h.2 hw]

lemma DeletionRequest.WipesDistinct.wipe_eq {request : DeletionRequest} (h : request.WipesDistinct)
    {w : JanitorWipe} (hw : w ∈ request.janitorWipes) : request.wipe w.destination = some w :=
  find?_destination h hw

end ChameleonVault.Deletion
