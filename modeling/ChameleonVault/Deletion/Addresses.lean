import ChameleonVault.Deletion.Routes

/-! Which of the ids that a deletion request can be stored under the other routes accept. -/

namespace ChameleonVault.Deletion

open Concurrency Interleaving Call DeletionRequestService
open KeyRegistry (truthy truthy_eq_some_iff)

variable {d : Deployment} {uuid : String → Bool} {w w' : World} {id userId tenantId : String}
  {request : DeletionRequest} {α : Type}

section Creation

def anything (_ : World) (_ : Op) (_ : Outcome) : Prop := True

inductive CreationEndpoint where
  | keyShred | deletionRequests
  deriving DecidableEq

structure CreationCall where
  endpoint : CreationEndpoint
  headers : Headers
  randomUUID : String
  analystEmail : Option String
  body : DeletionBody

namespace CreationCall

/-- The id that the caller gives, in the body or for correlation. -/
def given (call : CreationCall) : Option String := call.body.operation.or (truthy call.headers.correlationId)

def operationId (call : CreationCall) : String :=
  match call.endpoint with
  | .keyShred => call.body.operation.getD (call.headers.correlation call.randomUUID)
  | .deletionRequests => call.body.operation.getD ""

def run (d : Deployment) (uuid : String → Bool) (call : CreationCall) : Run Unit :=
  match call.endpoint with
  | .keyShred => ignore (keyShred d call.headers call.randomUUID call.body)
  | .deletionRequests => ignore (postDeletionRequest uuid call.headers call.analystEmail call.body)

def Creates (d : Deployment) (uuid : String → Bool) (call : CreationCall) (w : World) (id : String) (w' : World) : Prop :=
  Runs (Op.exec d) anything (call.run d uuid) w () w' ∧ w.deletionRequests.lookup id = none ∧
    (w'.deletionRequests.lookup id).isSome = true

end CreationCall

variable {operationId : String}

structure StoredFor (userId tenantId id : String) (request : DeletionRequest) : Prop where
  user : request.userId = userId
  tenant : request.tenantId = some tenantId
  name : request.deletionRequestId = id

lemma StoredFor.after {now : KeyRegistry.Date} {change : Option Change} (h : StoredFor userId tenantId id request) :
    StoredFor userId tenantId id (Change.after now change request) where
  user := by rw [after_userId, h.user]
  tenant := by rw [after_tenantId, h.tenant]
  name := by
    rw [← h.name]
    rcases change with _ | (_ | _ | _) <;> rfl

def Kept (userId tenantId id : String) (w : World) : Prop :=
  ∃ request, w.deletionRequests.lookup id = some request ∧ StoredFor userId tenantId id request

lemma Kept.exec {op : Op} {choice : Outcome} {reply : Except String op.Res} (h : Kept userId tenantId id w)
    (he : op.exec d choice w = some (reply, w')) : Kept userId tenantId id w' := by
  obtain ⟨request, hl, hs⟩ := h
  exact ⟨_, exec_lookup (a := ⟨0, op, choice, reply⟩) he hl, hs.after⟩

lemma Kept.runs {p : Run α} {a : α} (h : Kept userId tenantId id w) (hr : Runs (Op.exec d) anything p w a w') :
    Kept userId tenantId id w' := by
  induction p generalizing w with
  | done b => exact hr.2 ▸ h
  | step op next ih =>
    obtain ⟨choice, reply, w'', -, he, hr⟩ := hr
    exact ih reply (h.exec he) hr
  | choose next ih =>
    obtain ⟨b, hr⟩ := hr
    exact ih b h hr

lemma Kept.step {guard : (vault d).Guard} {c c' : (vault d).Config} (h : Kept userId tenantId id c.state)
    (hs : Step guard c c') : Kept userId tenantId id c'.state := by
  cases hs with
  | start j hj => exact h
  | pick t next b ht => exact h
  | act t op next choice reply s ht he hg => exact h.exec he
  | env e s he hg =>
    obtain ⟨request, hl, hs⟩ := h
    exact ⟨request, (congrArg (AList.lookup id) (env_requests he)).trans hl, hs⟩

lemma Kept.reachable {guard : (vault d).Guard} {c c' : (vault d).Config} (h : Kept userId tenantId id c.state)
    (hr : Reachable guard c c') : Kept userId tenantId id c'.state := by
  induction hr with
  | refl => exact h
  | tail _ hs ih => exact ih.step hs

def CreatesOnly (userId operationId tenantId : String) : Op → Prop
  | .createDeletionRequest u i t _ => u = userId ∧ i = operationId ∧ t = tenantId
  | _ => True

lemma createsOnly_of_advancing {op : Op} (h : Advancing op) : CreatesOnly userId operationId tenantId op := by
  cases op <;> trivial

lemma createRequest_createsOnly (requestedBy : Option String) :
    (createRequest userId operationId tenantId requestedBy).run.Uses (CreatesOnly userId operationId tenantId) := by
  refine uses_bind (uses_perform trivial) ?_
  rintro (_ | request)
  · refine uses_bind (uses_perform ⟨rfl, rfl, rfl⟩) fun request => ?_
    exact uses_bind (uses_quietly (uses_perform trivial)) fun _ => uses_pure _
  · exact uses_pure _

lemma startDeletion_createsOnly :
    (startDeletion d userId operationId tenantId).run.Uses (CreatesOnly userId operationId tenantId) := by
  refine uses_bind (createRequest_createsOnly none) fun created => ?_
  split
  · exact uses_pure _
  · refine uses_bind ((advanceRequest_advancing _ _ _ _ _).mono fun _ => createsOnly_of_advancing) fun request => ?_
    exact uses_bind ((advanceRequest_advancing _ _ _ _ _).mono fun _ => createsOnly_of_advancing) fun _ => uses_pure _

lemma shredRequest_createsOnly :
    (shredRequest d userId operationId tenantId).run.Uses (CreatesOnly userId operationId tenantId) := by
  refine uses_bind (uses_perform trivial) ?_
  rintro (_ | request)
  · refine uses_bind (uses_perform trivial) ?_
    rintro (_ | keyEntry)
    · exact uses_pure _
    · simp only
      split
      · exact uses_pure _
      · exact startDeletion_createsOnly
  · exact uses_pure _

lemma answered_uses {P : Op → Prop} {error : String} {handler : Service (Reply α)} (h : handler.run.Uses P) :
    (answered error handler).run.Uses P :=
  uses_tryCatch h fun _ => uses_pure _

lemma CreationCall.run_createsOnly (call : CreationCall) :
    (call.run d uuid).Uses (CreatesOnly call.body.user call.operationId call.headers.tenant) := by
  obtain ⟨endpoint, headers, randomUUID, analystEmail, body⟩ := call
  cases endpoint with
  | keyShred =>
    refine uses_ignore ?_
    rw [keyShred]
    split
    · exact answered_uses shredRequest_createsOnly
    · exact uses_pure _
  | deletionRequests =>
    refine uses_ignore (answered_uses ?_)
    split
    · exact uses_bind (createRequest_createsOnly _) fun _ => uses_pure _
    · exact uses_throw _

lemma runs_created {p : Run α} {a : α} (hp : p.Uses (CreatesOnly userId operationId tenantId))
    (hr : Runs (Op.exec d) anything p w a w') (hn : w.deletionRequests.lookup id = none)
    (hs : (w'.deletionRequests.lookup id).isSome = true) : id = operationId ∧ Kept userId tenantId id w' := by
  induction p generalizing w with
  | done b =>
    obtain ⟨-, rfl⟩ := hr
    rw [hn] at hs
    contradiction
  | step op next ih =>
    obtain ⟨choice, reply, w'', -, he, hr⟩ := hr
    cases hl : w''.deletionRequests.lookup id with
    | none => exact ih reply (hp.2 reply) hr hl
    | some request =>
      obtain ⟨-, u, t, requestedBy, hop, rfl⟩ := exec_created (a := ⟨0, op, choice, reply⟩) he hn hl
      simp only at hop
      subst hop
      obtain ⟨rfl, rfl, rfl⟩ := hp.1
      exact ⟨rfl, Kept.runs ⟨_, hl, rfl, rfl, rfl⟩ hr⟩
  | choose next ih =>
    obtain ⟨b, hr⟩ := hr
    exact ih b (hp b) hr hn

end Creation

section Addresses

def settle (error : String) : Except String (Reply α) → Reply α
  | .ok reply => reply
  | .error err => .failed 500 error (some err)

def advanceReply (result : Except String DeletionRequest) : Reply DeletionRequest :=
  settle "Failed to advance deletion request" (result.map (Reply.sent 200))

/-- The id passes the validation of the two routes, and both find the request under it. -/
structure Addressable (d : Deployment) (uuid : String → Bool) (headers : Headers) (id : String)
    (request : DeletionRequest) (w : World) : Prop where
  accepted : getDeletionRequestSchema uuid id = true
  polled : evaluate (Op.exec d) (.done .none) (fetchDeletionRequest uuid headers id).run w =
    some (.ok (.sent 200 request), w)
  driven (body : AdvanceBody) (newStatus : Status) (result : Except String DeletionRequest) (w' : World) :
    advanceDeletionRequestSchema uuid body = true → body.newStatus.or body.newStatusAlias = some newStatus →
    Runs (Op.exec d) anything (advanceRequest d id newStatus body.operation []).run w result w' →
    Runs (Op.exec d) anything (advanceDeletionRequest d uuid headers id body).run w (.ok (advanceReply result)) w'

lemma visible_of_storedFor {headers : Headers} (hs : StoredFor userId headers.tenant id request) :
    visible headers.tenant (some request) = some request := by
  simp [visible, hs.tenant]

lemma runs_answered {error : String} {handler : Service (Reply α)} {result : Except String (Reply α)}
    (h : Runs (Op.exec d) anything handler.run w result w') :
    Runs (Op.exec d) anything (answered error handler).run w (.ok (settle error result)) w' := by
  refine runs_bind_iff.mpr ⟨result, w', h, ?_⟩
  cases result <;> exact ⟨rfl, rfl⟩

lemma addressable {headers : Headers} (hid : uuid id = true) (hl : w.deletionRequests.lookup id = some request)
    (hs : StoredFor userId headers.tenant id request) : Addressable d uuid headers id request w where
  accepted := hid
  polled := by
    have hv := visible_of_storedFor hs
    rw [fetchDeletionRequest, getDeletionRequestSchema, if_pos hid]
    refine (evaluate_bind _ _ w).trans ?_
    refine Option.bind_eq_some_iff.mpr ⟨(.ok (.sent 200 request), w), ?_, rfl⟩
    refine Option.bind_eq_some_iff.mpr ⟨(.ok (w.deletionRequests.lookup id), w), rfl, ?_⟩
    simp only [hl, Prog.bind, ExceptT.bindCont, hv]
    rfl
  driven body newStatus result w' hbody hstatus hr := by
    have hv := visible_of_storedFor hs
    rw [advanceDeletionRequest, getDeletionRequestSchema, if_pos ⟨hid, hbody⟩, hstatus]
    apply runs_answered
    refine ⟨.done .none, .ok (some request), w, trivial, ?_, ?_⟩
    · show some (Except.ok (w.deletionRequests.lookup id), w) = _
      rw [hl]
      rfl
    · simp only [Prog.bind, ExceptT.bindCont, hv]
      refine runs_bind_iff.mpr ⟨result, w', hr, ?_⟩
      cases result <;> exact ⟨rfl, rfl⟩

lemma uuid_of_truthy {first second : Option String} (h : first.all uuid = true) (h' : second.all uuid = true)
    (hgiven : first.isSome = true ∨ second.isSome = true) :
    uuid (((truthy first).or (truthy second)).getD "") = true := by
  cases hf : truthy first with
  | some value =>
    obtain ⟨rfl, -⟩ := truthy_eq_some_iff.mp hf
    exact h
  | none =>
    cases hs : truthy second with
    | some value =>
      obtain ⟨rfl, -⟩ := truthy_eq_some_iff.mp hs
      exact h'
    | none =>
      -- what was given is the empty string, which passed
      rcases hgiven with hg | hg
      · obtain ⟨value, rfl⟩ := Option.isSome_iff_exists.mp hg
        have hempty : value = "" := by_contra fun hne => by simp [truthy, hne] at hf
        exact hempty ▸ h
      · obtain ⟨value, rfl⟩ := Option.isSome_iff_exists.mp hg
        have hempty : value = "" := by_contra fun hne => by simp [truthy, hne] at hs
        exact hempty ▸ h'

lemma operationId_of_keyShred {call : CreationCall} (he : call.endpoint = .keyShred) :
    call.operationId = call.given.getD call.randomUUID := by
  simp only [CreationCall.operationId, he, CreationCall.given, Headers.correlation]
  cases call.body.operation <;> rfl

lemma uuid_of_posted {call : CreationCall} (he : call.endpoint = .deletionRequests)
    (hc : call.Creates d uuid w id w') : uuid call.operationId = true := by
  obtain ⟨endpoint, headers, randomUUID, analystEmail, body⟩ := call
  obtain rfl : endpoint = .deletionRequests := he
  obtain ⟨hr, hn, hs⟩ := hc
  by_cases hschema : createDeletionRequestSchema uuid body = true
  · simp only [createDeletionRequestSchema, DeletionBody.accepted, Bool.and_eq_true, Bool.or_eq_true] at hschema
    obtain ⟨⟨⟨⟨-, hop⟩, hop'⟩, -⟩, hgiven⟩ := hschema
    exact uuid_of_truthy hop hop' hgiven
  · rw [CreationCall.run, postDeletionRequest, if_neg hschema] at hr
    obtain ⟨-, rfl⟩ := hr
    rw [hn] at hs
    contradiction

theorem created_addressable_iff {call : CreationCall} (hgenerated : uuid call.randomUUID = true)
    (hc : call.Creates d uuid w id w') :
    (∀ c c' : (vault d).Config, c.state = w' → Reachable free c c' →
      ∃ request, c'.state.deletionRequests.lookup id = some request ∧
        StoredFor call.body.user call.headers.tenant id request ∧
        Addressable d uuid call.headers id request c'.state) ↔
    call.endpoint = .deletionRequests ∨ ∀ given, call.given = some given → uuid given = true := by
  obtain ⟨rfl, hkept⟩ := runs_created call.run_createsOnly hc.1 hc.2.1 hc.2.2
  constructor
  · intro h
    obtain ⟨request, -, -, ha⟩ := h ⟨w', [], []⟩ ⟨w', [], []⟩ rfl .refl
    have hid : uuid call.operationId = true := ha.accepted
    cases he : call.endpoint with
    | deletionRequests => exact .inl rfl
    | keyShred =>
      refine .inr fun given hg => ?_
      rw [operationId_of_keyShred he, hg] at hid
      exact hid
  · intro h c c' hstate hr
    have hid : uuid call.operationId = true := by
      cases he : call.endpoint with
      | deletionRequests => exact uuid_of_posted he hc
      | keyShred =>
        rw [operationId_of_keyShred he]
        cases hg : call.given with
        | none => exact hgenerated
        | some given => exact h.resolve_left (by simp [he]) given hg
    obtain ⟨request, hl, hs⟩ := Kept.reachable (hstate ▸ hkept) hr
    exact ⟨request, hl, hs, addressable hid hl hs⟩

end Addresses

section Runs

def hyphenatedUuid (value : String) : Bool :=
  let groups := value.toList.splitOn '-'
  decide (groups.map List.length = [8, 4, 4, 4, 12]) && groups.flatten.all fun c => c.isDigit || c ∈ "abcdefABCDEF".toList

instance (w : World) (op : Op) (choice : Outcome) : Decidable (anything w op choice) := isTrue trivial

def withKey (tenantId userId : String) (w : World) : World :=
  match w.writeKey userId tenantId (.set userId [1]) with
  | .ok (_, w') => w'
  | .error _ => w

def shredCall (operationId : Option String) : CreationCall where
  endpoint := .keyShred
  headers := { tenantId := some "acme" }
  randomUUID := operation
  analystEmail := none
  body := { userId := some "ada", operationId := operationId }

def shredChoices : List Outcome := List.replicate 11 (.done .none) ++ [.failed]

lemma exists_creates {call : CreationCall} (choices : List Outcome)
    (h : (w.deletionRequests.lookup id).isNone = true ∧ ((play (Op.exec d) anything (call.run d uuid) choices w).any
      fun r => (r.2.deletionRequests.lookup id).isSome) = true) : ∃ w', call.Creates d uuid w id w' := by
  obtain ⟨⟨_, w'⟩, hp, hs⟩ := (Option.any_eq_true _ _).mp h.2
  exact ⟨w', runs_of_play hp, Option.isNone_iff_eq_none.mp h.1, hs⟩

theorem created_addressable_generated :
    ∃ w', (shredCall none).Creates smallDeployment hyphenatedUuid (withKey "acme" "ada" (emptyVault 0)) operation w' ∧
      ∀ c c' : (vault smallDeployment).Config, c.state = w' → Reachable free c c' →
        ∃ request, c'.state.deletionRequests.lookup operation = some request ∧
          StoredFor "ada" "acme" operation request ∧
          Addressable smallDeployment hyphenatedUuid (shredCall none).headers operation request c'.state := by
  obtain ⟨w', hc⟩ : ∃ w', (shredCall none).Creates smallDeployment hyphenatedUuid
      (withKey "acme" "ada" (emptyVault 0)) operation w' := exists_creates shredChoices (by decide +kernel)
  have hgenerated : hyphenatedUuid (shredCall none).randomUUID = true := by decide +kernel
  exact ⟨w', hc, (created_addressable_iff hgenerated hc).mpr (.inr fun given hg => by cases hg)⟩

theorem created_under_a_name :
    (∃ w', (shredCall (some "op-1")).Creates smallDeployment hyphenatedUuid (withKey "acme" "ada" (emptyVault 0))
      "op-1" w') ∧
    getDeletionRequestSchema hyphenatedUuid "op-1" = false ∧
    ∀ w : World, evaluate (Op.exec smallDeployment) (.done .none)
        (fetchDeletionRequest hyphenatedUuid (shredCall none).headers "op-1").run w =
      some (.ok (.failed 500 "Failed to get deletion request" (some thrownByValidation)), w) :=
  ⟨exists_creates shredChoices (by decide +kernel), by decide +kernel, fun w => rfl⟩

end Runs

end ChameleonVault.Deletion
