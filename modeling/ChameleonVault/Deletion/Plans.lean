import ChameleonVault.Deletion.Recording

/-! No certificate without an executed cascade: the plan that was built last, and the wipes that
are recorded when a certificate is issued. -/

namespace ChameleonVault.Deletion

open Concurrency Interleaving Discipline

variable {d : Deployment} {w w' : World} {log : (vault d).Log} {a : (vault d).Action} {id : String}
  {request : DeletionRequest}

def planBuilt (id : String) : (vault d).Entry → Option Plan
  | .act ⟨_, .buildPlan id' _ _, _, .ok plan⟩ => if id' = id then some plan else none
  | _ => none

def latestPlan (id : String) : (vault d).Log → Option Plan
  | [] => none
  | e :: log =>
    match planBuilt id e with
    | some plan => some plan
    | none => latestPlan id log

def plannedDestinations (plan : Option Plan) : List String :=
  match plan with
  | some plan => plan.destinations
  | none => []

def succeededAt (request : DeletionRequest) (destination : String) : Bool :=
  (request.wipe destination).any fun wipe => wipe.status = .succeeded

def isExecuted (request : DeletionRequest) (plan : Option Plan) : Bool :=
  (plannedDestinations plan).all (succeededAt request)

/-- No call without a claim declares the cascade complete but the one whose outcomes are stored for the
whole plan. And while the cascade counts as complete or a certificate is being issued, nothing is planned
anew and nothing that is planned fails. -/
def planCovered (id : String) : (vault d).Guard := fun w log e =>
  (match w.deletionRequests.lookup id with
    | none => true
    | some request =>
      match e, changeOf id e, planBuilt id e with
      | .act a, some (.status .cascadeComplete), _ => (handlers.known a.tid log).claim.isSome ||
          (plannedDestinations (latestPlan id log)).all (recordedBy id request log a.tid)
      | _, some (.wipe destination .failed _), _ =>
        !certifying id request log || destination ∉ plannedDestinations (latestPlan id log)
      | _, _, some plan => !certifying id request log || plan.destinations ⊆ plannedDestinations (latestPlan id log)
      | _, _, _ => true) = true

instance : ∀ w log e, Decidable (@planCovered d id w log e) := fun _ _ _ => inferInstanceAs (Decidable (_ = true))

structure Executed (id : String) (request : DeletionRequest) (log : (vault d).Log) : Prop where
  recorders : Recorders id request log
  executed : certifying id request log = true → isExecuted request (latestPlan id log) = true

lemma planBuilt_change {plan : Plan} (h : planBuilt id (.act a) = some plan) : changeOf id (.act a) = none := by
  obtain ⟨t, op, choice, reply⟩ := a
  cases op
  case buildPlan id' tenantId tasks => rfl
  all_goals contradiction

lemma isExecuted_iff {plan : Option Plan} :
    isExecuted request plan = true ↔
      ∀ destination ∈ plannedDestinations plan, succeededAt request destination = true := by
  simp [isExecuted]

lemma isExecuted_writeWipe {plan : Option Plan} (h : isExecuted request plan = true) (wipe : JanitorWipe)
    (hw : wipe.status = .succeeded ∨ wipe.destination ∉ plannedDestinations plan) :
    isExecuted (request.writeWipe wipe) plan = true := by
  rw [isExecuted_iff] at h ⊢
  intro destination hd
  by_cases he : wipe.destination = destination
  · subst he
    have hs : wipe.status = .succeeded := hw.resolve_right (fun hn => hn hd)
    simp [succeededAt, wipe_writeWipe_self, hs]
  · simpa [succeededAt, wipe_writeWipe_ne he] using h destination hd

-- What the call that declares the cascade complete recorded itself are successes.
lemma Executed.completed (h : Executed id request log)
    (ht : Touch (within recording (planCovered id)) id w log a w' request)
    (hs : statusOf id (.act a) = some .cascadeComplete) : isExecuted request (latestPlan id log) = true := by
  have hg := (within_of_act ht.allowed.guard).1
  have hc : changeOf id (.act a) = some (.status .cascadeComplete) := statusOf_eq.mp hs
  simp only [planCovered, ht.stored, hc, Bool.or_eq_true, List.all_eq_true] at hg
  rcases hg with hclaim | hown
  · exact h.executed (certifying_of_holds (ht.holds_of_complete hs hclaim))
  · rw [isExecuted_iff]
    intro destination hd
    obtain ⟨wipe, hw, hst⟩ := h.recorders.succeeded (clean_of_complete ht.allowed.guard hs) (hown destination hd)
    simp [succeededAt, hw, hst]

lemma Executed.kept (h : Executed id request log)
    (ht : Touch (within recording (planCovered id)) id w log a w' request)
    (hcert : certifying id request log = true) :
    isExecuted (Change.after w.clock (changeOf id (.act a)) request) (latestPlan id (.act a :: log)) = true := by
  have hg := (within_of_act ht.allowed.guard).1
  have hex := h.executed hcert
  cases hp : planBuilt id (.act a) with
  | some plan =>
    have hc : changeOf id (.act a) = none := planBuilt_change hp
    simp only [planCovered, ht.stored, hc, hp, hcert, Bool.not_true, Bool.false_or, decide_eq_true_eq] at hg
    simp only [latestPlan, hp, hc, Change.after]
    rw [isExecuted_iff] at hex ⊢
    exact fun destination hd => hex destination (hg hd)
  | none =>
    simp only [latestPlan, hp]
    cases hc : changeOf id (.act a) with
    | none => exact hex
    | some change =>
      cases change with
      | status newStatus => exact hex
      | attach fields => exact hex
      | wipe destination status details =>
        rcases ht.wipe hc with rfl | rfl
        · exact isExecuted_writeWipe hex _ (.inl rfl)
        · simp only [planCovered, ht.stored, hc, hcert, Bool.not_true, Bool.false_or, decide_eq_true_eq] at hg
          exact isExecuted_writeWipe hex _ (.inr hg)

lemma Executed.act (h : Executed id request log) (ht : Touch (within recording (planCovered id)) id w log a w' request) :
    Executed id (Change.after w.clock (changeOf id (.act a)) request) (.act a :: log) where
  recorders := h.recorders.act ht
  executed hcert := by
    rcases ht.certifying_after hcert with hb | hc
    · exact h.kept ht hb
    · have hp : planBuilt id (.act a) = none := by
        cases hp : planBuilt id (.act a) with
        | none => rfl
        | some plan =>
          rw [planBuilt_change hp] at hc
          contradiction
      have hex := h.completed ht (statusOf_eq.mpr hc)
      simp only [latestPlan, hp, hc]
      exact hex

lemma planCovered_lasting : Lasting (within recording (@planCovered d id)) id (Executed id) where
  new _ _ _ _ h := by
    refine ⟨.new, fun hc => ?_⟩
    rw [h.certifying] at hc
    contradiction
  act h ht := h.act ht
  env h := ⟨h.recorders.env, h.executed⟩

def Op.issues : Op → Option String
  | .getGhostDataFindings id _ _ => some id
  | _ => none

lemma eq_of_issues {op : Op} (h : op.issues = some id) :
    ∃ userId tenantId, op = .getGhostDataFindings id userId tenantId := by
  cases op <;> cases h
  exact ⟨_, _, rfl⟩

lemma exists_succeeded {destination : String} (h : succeededAt request destination = true) :
    ∃ wipe ∈ request.janitorWipes, wipe.destination = destination ∧ wipe.status = .succeeded := by
  obtain ⟨wipe, hw, hs⟩ := (Option.any_eq_true _ _).mp h
  obtain ⟨hm, hd⟩ := mem_of_wipe hw
  exact ⟨wipe, hm, hd, of_decide_eq_true hs⟩

section Runs

/-- While the cascade is still running, another call declares it complete. -/
def declaredComplete : List VaultEvent :=
  cascadeLaunched ++ [.start (.advanceRequest "request" .cascadeComplete "operation")] ++ steps 4 4

def isAnswered : (vault d).Entry → Bool
  | .act ⟨_, _, _, .error _⟩ => false
  | _ => true

end Runs

end ChameleonVault.Deletion
