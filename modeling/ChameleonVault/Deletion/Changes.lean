import ChameleonVault.Deletion.Handlers

/-! What one operation does to one stored request, and what a call can know about it. -/

namespace ChameleonVault.Deletion

open Concurrency Interleaving Discipline
open KeyRegistry (Date)

inductive Change where
  | status (newStatus : Status)
  | attach (fields : UpdateFields)
  | wipe (destination : String) (status : WipeStatus) (details : WipeDetails)

def Change.apply (now : Date) : Change → DeletionRequest → DeletionRequest
  | .status newStatus, request => request.writeStatus newStatus now
  | .attach fields, request => request.writeFields fields
  | .wipe destination wipeStatus details, request => request.writeWipe ⟨destination, wipeStatus, now, details⟩

def Op.edit : Op → Option (String × Change)
  | .claimTransition id _ newStatus => some (id, .status newStatus)
  | .updateDeletionRequestStatus id newStatus => some (id, .status newStatus)
  | .updateDeletionRequestFields id fields => some (id, .attach fields)
  | .updateJanitorWipeStatus id destination status details => some (id, .wipe destination status details)
  | _ => none

lemma lookup_putRequest {w : World} {id id' : String} {r' request : DeletionRequest}
    (hr : w.deletionRequests.lookup id = some request) :
    (w.putRequest id' r').deletionRequests.lookup id = some (if id' = id then r' else request) := by
  by_cases hid : id' = id
  · subst hid
    simp [World.putRequest]
  · simp [World.putRequest, hid, AList.lookup_insert_ne (Ne.symm hid), hr]

lemma lookup_updateRequest {w w' : World} {id' missing : String} {f : DeletionRequest → DeletionRequest} {u : Unit}
    (h : w.updateRequest id' missing f = .ok (u, w')) {id : String} {request : DeletionRequest}
    (hr : w.deletionRequests.lookup id = some request) :
    w'.deletionRequests.lookup id = some (if id' = id then f request else request) := by
  simp only [World.updateRequest] at h
  split at h
  · contradiction
  · rename_i r hr'
    obtain ⟨-, rfl⟩ := Prod.mk.inj (Except.ok.inj h)
    rw [lookup_putRequest hr]
    by_cases hid : id' = id
    · subst hid
      obtain rfl := Option.some.inj (hr'.symm.trans hr)
      rfl
    · simp [hid]

lemma writeKey_requests {w w' : World} {userId tenantId : String} {write : KeyRegistry.KeyWrite} {u : Unit}
    (h : w.writeKey userId tenantId write = .ok (u, w')) : w'.deletionRequests = w.deletionRequests := by
  simp only [World.writeKey, bind, Except.bind] at h
  split at h
  · contradiction
  · obtain ⟨-, rfl⟩ := Prod.mk.inj (Except.ok.inj h)
    rfl

lemma updateEntry_stores {w w' : World} {hash : String} {f : CertificateChainEntry → CertificateChainEntry}
    {u : Unit} (h : w.updateEntry hash f = .ok (u, w')) :
    w'.deletionRequests = w.deletionRequests ∧ w'.keyRegistry = w.keyRegistry := by
  simp only [World.updateEntry] at h
  split at h
  · contradiction
  · obtain ⟨-, rfl⟩ := Prod.mk.inj (Except.ok.inj h)
    exact ⟨rfl, rfl⟩

lemma writeFields_nothing (request : DeletionRequest) : request.writeFields {} = request := rfl

lemma run_stores {d : Deployment} {op : Op} {answer : Answer} {w w' : World} {a : op.Res}
    (h : op.run d answer w = some (.ok (a, w'))) (he : op.edit = none)
    (hc : ∀ u o t b, op ≠ .createDeletionRequest u o t b) (hs : ∀ u t id, op ≠ .shredKeyForUser u t id) :
    w'.deletionRequests = w.deletionRequests ∧ w'.keyRegistry = w.keyRegistry := by
  cases op
  case createDeletionRequest u o t b => exact absurd rfl (hc u o t b)
  case shredKeyForUser u t id => exact absurd rfl (hs u t id)
  case claimTransition => contradiction
  case updateDeletionRequestStatus => contradiction
  case updateDeletionRequestFields => contradiction
  case updateJanitorWipeStatus => contradiction
  case recordTsaTimestamp => exact updateEntry_stores (Option.some.inj h)
  case recordRekorEntry => exact updateEntry_stores (Option.some.inj h)
  all_goals cases answer
  all_goals try cases h
  all_goals try exact ⟨rfl, rfl⟩
  · rename_i found result
    cases result with
    | error e => cases h
    | ok result =>
      simp only [Op.run] at h
      split at h
      · cases h
        exact ⟨rfl, rfl⟩
      · contradiction
  · rename_i affected failure
    cases failure <;> cases h
    exact ⟨rfl, rfl⟩

lemma run_requests {d : Deployment} {op : Op} {answer : Answer} {w w' : World} {a : op.Res}
    (h : op.run d answer w = some (.ok (a, w'))) (he : op.edit = none)
    (hc : ∀ u o t b, op ≠ .createDeletionRequest u o t b) : w'.deletionRequests = w.deletionRequests := by
  by_cases hs : ∃ u t id, op = .shredKeyForUser u t id
  · obtain ⟨u, t, id, rfl⟩ := hs
    exact writeKey_requests (Option.some.inj h)
  · exact (run_stores h he hc fun u t id hop => hs ⟨u, t, id, hop⟩).1

lemma updateRequest_keyRegistry {w w' : World} {id missing : String} {f : DeletionRequest → DeletionRequest} {u : Unit}
    (h : w.updateRequest id missing f = .ok (u, w')) : w'.keyRegistry = w.keyRegistry := by
  simp only [World.updateRequest] at h
  split at h
  · contradiction
  · obtain ⟨-, rfl⟩ := Prod.mk.inj (Except.ok.inj h)
    rfl

lemma claimTransition_cases {w w' : World} {id : String} {allowedFromStatuses : List Status} {newStatus : Status}
    {a : ClaimResult} (h : w.claimTransition id allowedFromStatuses newStatus = .ok (a, w')) :
    (∃ request, w.deletionRequests.lookup id = some request ∧ request.status ∈ allowedFromStatuses ∧
      a = .claimed ∧ w' = w.putRequest id (request.writeStatus newStatus w.clock)) ∨
    (∃ current, a = .lost current ∧ w' = w) := by
  simp only [World.claimTransition] at h
  split at h
  · contradiction
  · rename_i request hr
    split at h
    · rename_i hs
      obtain ⟨rfl, rfl⟩ := Prod.mk.inj (Except.ok.inj h)
      exact .inl ⟨request, hr, hs, rfl, rfl⟩
    · obtain ⟨rfl, rfl⟩ := Prod.mk.inj (Except.ok.inj h)
      exact .inr ⟨request, rfl, rfl⟩

lemma updateDeletionRequestFields_cases {w w' : World} {id : String} {fields : UpdateFields} {u : Unit}
    (h : w.updateDeletionRequestFields id fields = .ok (u, w')) :
    (fields = {} ∧ w' = w) ∨ w.updateRequest id "NOT_FOUND" (·.writeFields fields) = .ok (u, w') := by
  simp only [World.updateDeletionRequestFields] at h
  split at h
  · rename_i hf
    obtain ⟨-, rfl⟩ := Prod.mk.inj (Except.ok.inj h)
    exact .inl ⟨hf, rfl⟩
  · exact .inr h

lemma run_keyRegistry {d : Deployment} {op : Op} {answer : Answer} {w w' : World} {a : op.Res}
    (h : op.run d answer w = some (.ok (a, w'))) (hs : ∀ u t id, op ≠ .shredKeyForUser u t id) :
    w'.keyRegistry = w.keyRegistry := by
  cases op
  case shredKeyForUser u t id => exact absurd rfl (hs u t id)
  case createDeletionRequest =>
    obtain ⟨-, rfl⟩ := Prod.mk.inj (Except.ok.inj (Option.some.inj h))
    split <;> rfl
  case claimTransition =>
    rcases claimTransition_cases (Option.some.inj h) with ⟨request, -, -, -, rfl⟩ | ⟨current, -, rfl⟩ <;> rfl
  case updateDeletionRequestStatus => exact updateRequest_keyRegistry (Option.some.inj h)
  case updateDeletionRequestFields =>
    rcases updateDeletionRequestFields_cases (Option.some.inj h) with ⟨-, rfl⟩ | hu
    · rfl
    · exact updateRequest_keyRegistry hu
  case updateJanitorWipeStatus => exact updateRequest_keyRegistry (Option.some.inj h)
  all_goals exact (run_stores h rfl (by simp) (by simp)).2

lemma run_ineffective {d : Deployment} {op : Op} {answer : Answer} {w w' : World} {a : op.Res}
    (h : op.run d answer w = some (.ok (a, w'))) (he : op.effective a = false) : w' = w := by
  cases op
  case claimTransition =>
    rcases claimTransition_cases (Option.some.inj h) with ⟨request, -, -, rfl, -⟩ | ⟨current, rfl, hw⟩
    · contradiction
    · exact hw
  all_goals contradiction

lemma exec_cases {d : Deployment} {op : Op} {choice : Outcome} {w w' : World} {reply : Except String op.Res}
    (h : op.exec d choice w = some (reply, w')) :
    (op.tookEffect choice reply = true ∧
      ∃ answer a, op.run d answer w = some (.ok (a, w')) ∧ op.effective a = true) ∨
    (op.tookEffect choice reply = false ∧ w' = w) := by
  cases choice with
  | done answer =>
    simp only [Op.exec] at h
    split at h
    · rename_i a w'' hr
      obtain ⟨rfl, rfl⟩ := Prod.mk.inj (Option.some.inj h)
      cases he : op.effective a with
      | true => exact .inl ⟨he, answer, a, hr, he⟩
      | false => exact .inr ⟨he, run_ineffective hr he⟩
    · obtain ⟨rfl, rfl⟩ := Prod.mk.inj (Option.some.inj h)
      exact .inr ⟨rfl, rfl⟩
    · contradiction
  | failed =>
    simp only [Op.exec] at h
    split at h
    · contradiction
    · obtain ⟨rfl, rfl⟩ := Prod.mk.inj (Option.some.inj h)
      exact .inr ⟨rfl, rfl⟩
  | unconfirmed answer =>
    simp only [Op.exec] at h
    split at h
    · contradiction
    · split at h
      · rename_i a w'' hr
        split at h
        · rename_i he
          obtain ⟨rfl, rfl⟩ := Prod.mk.inj (Option.some.inj h)
          exact .inl ⟨rfl, answer, a, hr, he⟩
        · contradiction
      · contradiction

lemma lookup_createDeletionRequest {w : World} {userId id' tenantId : String} {requestedBy : Option String}
    {id : String} {request : DeletionRequest} (hr : w.deletionRequests.lookup id = some request) :
    (w.createDeletionRequest userId id' tenantId requestedBy).2.deletionRequests.lookup id = some request := by
  simp only [World.createDeletionRequest]
  split
  · exact hr
  · rename_i hn
    rw [lookup_putRequest hr]
    have hid : id' ≠ id := by
      rintro rfl
      rw [hr] at hn
      contradiction
    simp [hid]

lemma run_lookup {d : Deployment} {op : Op} {answer : Answer} {w w' : World} {a : op.Res}
    (h : op.run d answer w = some (.ok (a, w'))) (he : op.effective a = true) {id : String}
    {request : DeletionRequest} (hr : w.deletionRequests.lookup id = some request) :
    w'.deletionRequests.lookup id = some (match op.edit with
      | some (id', c) => if id' = id then c.apply w.clock request else request
      | none => request) := by
  cases hop : op.edit with
  | none =>
    by_cases hc : ∃ u o t b, op = .createDeletionRequest u o t b
    · obtain ⟨u, o, t, b, rfl⟩ := hc
      obtain ⟨-, rfl⟩ := Prod.mk.inj (Except.ok.inj (Option.some.inj h))
      exact lookup_createDeletionRequest hr
    · rw [run_requests h hop (fun u o t b hop => hc ⟨u, o, t, b, hop⟩)]
      exact hr
  | some edit =>
    cases op
    case claimTransition id' allowedFromStatuses newStatus =>
      obtain rfl := Option.some.inj hop
      rcases claimTransition_cases (Option.some.inj h) with ⟨r, hr', -, -, rfl⟩ | ⟨current, rfl, -⟩
      · simp only [lookup_putRequest hr]
        by_cases hid : id' = id
        · subst hid
          obtain rfl := Option.some.inj (hr'.symm.trans hr)
          rfl
        · simp [hid]
      · contradiction
    case updateDeletionRequestStatus id' newStatus =>
      obtain rfl := Option.some.inj hop
      exact lookup_updateRequest (Option.some.inj h) hr
    case updateDeletionRequestFields id' fields =>
      obtain rfl := Option.some.inj hop
      rcases updateDeletionRequestFields_cases (Option.some.inj h) with ⟨rfl, rfl⟩ | hu
      · simpa [Change.apply, writeFields_nothing] using hr
      · exact lookup_updateRequest hu hr
    case updateJanitorWipeStatus id' destination status details =>
      obtain rfl := Option.some.inj hop
      exact lookup_updateRequest (Option.some.inj h) hr
    all_goals contradiction

def changeOf {d : Deployment} (id : String) : (vault d).Entry → Option Change
  | .act ⟨_, op, choice, reply⟩ =>
    match op.edit with
    | some (id', c) => if id' = id ∧ op.tookEffect choice reply = true then some c else none
    | none => none
  | .env _ => none

def Change.after (now : Date) (change : Option Change) (request : DeletionRequest) : DeletionRequest :=
  match change with
  | some c => c.apply now request
  | none => request

@[simp] lemma after_userId (now : Date) (change : Option Change) (request : DeletionRequest) :
    (Change.after now change request).userId = request.userId := by
  rcases change with _ | (_ | _ | _) <;> rfl

@[simp] lemma after_tenantId (now : Date) (change : Option Change) (request : DeletionRequest) :
    (Change.after now change request).tenantId = request.tenantId := by
  rcases change with _ | (_ | _ | _) <;> rfl

@[simp] lemma after_tenant (now : Date) (change : Option Change) (request : DeletionRequest) :
    (Change.after now change request).tenant = request.tenant := by
  simp [DeletionRequest.tenant]

lemma exec_lookup {d : Deployment} {a : (vault d).Action} {w w' : World}
    (h : Op.exec d a.op a.choice w = some (a.reply, w')) {id : String} {request : DeletionRequest}
    (hr : w.deletionRequests.lookup id = some request) :
    w'.deletionRequests.lookup id = some (Change.after w.clock (changeOf id (.act a)) request) := by
  rcases exec_cases h with ⟨ht, answer, r, hrun, he⟩ | ⟨ht, rfl⟩
  · rw [run_lookup hrun he hr]
    simp only [changeOf, ht, and_true]
    split
    · split <;> rfl
    · rfl
  · rw [hr]
    simp only [changeOf, ht, Bool.false_eq_true, and_false, if_false]
    split <;> rfl

end ChameleonVault.Deletion
