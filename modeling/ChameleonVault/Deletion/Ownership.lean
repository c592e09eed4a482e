import ChameleonVault.Concurrency.Solo
import ChameleonVault.Deletion.Runs

/-! Whose deletion request `createRequest` returns: the two ways in which it finds one that exists. -/

namespace ChameleonVault.Deletion

open Concurrency DeletionRequestService

variable {d : Deployment} {w : World} {userId operationId tenantId : String} {requestedBy : Option String}

def DeletionRequest.BelongsTo (userId tenantId : String) (request : DeletionRequest) : Prop :=
  request.userId = userId ∧ request.tenantId = some tenantId

def HasActive (userId tenantId : String) (w : World) : Prop :=
  ∃ request ∈ w.requests, request.BelongsTo userId tenantId ∧ request.isActive = true

lemma newest_mem {requests : List DeletionRequest} {request : DeletionRequest} (h : newest requests = some request) :
    request ∈ requests := by
  induction requests generalizing request with
  | nil => contradiction
  | cons r rs ih =>
    simp only [newest] at h
    cases hn : newest rs with
    | none =>
      rw [hn] at h
      exact Option.some.inj h ▸ List.mem_cons_self
    | some q =>
      simp only [hn] at h
      split at h
      · exact List.mem_cons_of_mem r (ih (hn.trans h))
      · exact Option.some.inj h ▸ List.mem_cons_self

lemma newest_eq_none {requests : List DeletionRequest} (h : newest requests = none) : requests = [] := by
  cases requests with
  | nil => rfl
  | cons r rs =>
    simp only [newest] at h
    split at h
    · contradiction
    · split at h <;> contradiction

lemma getActive_belongsTo {request : DeletionRequest}
    (h : w.getActiveDeletionRequestForUser userId tenantId = some request) : request.BelongsTo userId tenantId := by
  have hm := (List.mem_filter.mp (newest_mem h)).2
  simp only [Bool.decide_and, Bool.and_eq_true, decide_eq_true_eq] at hm
  exact ⟨hm.1, hm.2.1⟩

lemma getActive_isSome_iff :
    (w.getActiveDeletionRequestForUser userId tenantId).isSome = true ↔ HasActive userId tenantId w := by
  constructor
  · intro h
    obtain ⟨request, hr⟩ := Option.isSome_iff_exists.mp h
    obtain ⟨hm, hf⟩ := List.mem_filter.mp (newest_mem hr)
    simp only [Bool.decide_and, Bool.and_eq_true, decide_eq_true_eq] at hf
    exact ⟨request, hm, ⟨hf.1, hf.2.1⟩, by simpa using hf.2.2⟩
  · rintro ⟨request, hm, ⟨hu, ht⟩, ha⟩
    by_contra hn
    have hnone : w.getActiveDeletionRequestForUser userId tenantId = none := by simpa using hn
    have hmem : request ∈ w.requests.filter fun r => r.userId = userId ∧ r.tenantId = some tenantId ∧ r.isActive = true :=
      List.mem_filter.mpr ⟨hm, by simp [hu, ht, ha]⟩
    rw [newest_eq_none hnone] at hmem
    contradiction

lemma returns_createRequest {created : CreatedRequest} :
    Returns (Op.exec d) (createRequest userId operationId tenantId requestedBy) w created ↔
      created = match w.getActiveDeletionRequestForUser userId tenantId with
        | some request => ⟨request, true⟩
        | none => ⟨(w.createDeletionRequest userId operationId tenantId requestedBy).1, false⟩ := by
  constructor
  · rintro ⟨choice, reply, w', he, -, h⟩
    cases reply with
    | error e => contradiction
    | ok existing =>
      obtain ⟨answer, -, hr⟩ := exec_ok he
      obtain ⟨rfl, rfl⟩ := Prod.mk.inj (Except.ok.inj (Option.some.inj hr))
      cases ha : w.getActiveDeletionRequestForUser userId tenantId with
      | some request =>
        simp only [ha] at h
        exact (Except.ok.inj h).symm
      | none =>
        simp only [ha] at h
        obtain ⟨choice', reply', w'', he', -, h⟩ := h
        cases reply' with
        | error e => contradiction
        | ok request =>
          obtain ⟨answer', -, hr'⟩ := exec_ok he'
          obtain ⟨rfl, -⟩ := Prod.mk.inj (Except.ok.inj (Option.some.inj hr'))
          obtain ⟨choice'', reply'', w₃, he'', -, h⟩ := h
          cases reply'' <;> exact (Except.ok.inj h).symm
  · rintro rfl
    refine ⟨.done .none, .ok (w.getActiveDeletionRequestForUser userId tenantId), w, rfl, trivial, ?_⟩
    cases w.getActiveDeletionRequestForUser userId tenantId with
    | some request => rfl
    | none => exact ⟨.done .none, .ok _, _, rfl, trivial, .done .none, .ok (), _, rfl, trivial, rfl⟩

lemma createDeletionRequest_belongsTo :
    (w.createDeletionRequest userId operationId tenantId requestedBy).1.BelongsTo userId tenantId ↔
      ∀ request, w.deletionRequests.lookup operationId = some request → request.BelongsTo userId tenantId := by
  simp only [World.createDeletionRequest]
  cases hl : w.deletionRequests.lookup operationId with
  | some request => simp
  | none => simp [DeletionRequest.BelongsTo, DeletionRequest.new]

section Runs

def operation : String := "0b6f1c1e-5d0a-4f6e-9f43-2a8f5f0d7c11"

def adasRequest : DeletionRequest := .new "ada" operation "acme" none 0

end Runs

end ChameleonVault.Deletion
