import ChameleonVault.KeyRegistry.KeyMetadata
import Mathlib.Algebra.Order.Ring.Rat

/-! The progress of a sync run, under its transactions in any order. -/

namespace ChameleonVault.SyncRuns

open KeyRegistry (Date)

section Transactions

inductive SyncRunStatus where
  | enumerating | running | complete
  deriving DecidableEq

structure SyncRun where
  runId : String
  tenantId : String
  resourceId : Option String
  status : SyncRunStatus
  chunksTotal : Option ℚ
  chunksCompleted : ℕ
  chunksFailed : ℕ
  startedAt : Date
  completedAt : Option Date
  deriving DecidableEq

inductive ChunkOutcome where
  | completed | failed
  deriving DecidableEq

namespace SyncRun

def create (runId tenantId : String) (resourceId : Option String) (now : Date) : SyncRun where
  runId := runId
  tenantId := tenantId
  resourceId := KeyRegistry.truthy resourceId
  status := .enumerating
  chunksTotal := none
  chunksCompleted := 0
  chunksFailed := 0
  startedAt := now
  completedAt := none

def finalizeTotal (chunksTotal : ℚ) (now : Date) (current : SyncRun) : SyncRun :=
  let done := decide (chunksTotal ≤ current.chunksCompleted)
  { current with
    chunksTotal := some chunksTotal
    status := if done then .complete else .running
    completedAt := if done ∧ current.completedAt = none then some now else current.completedAt }

def recordChunkOutcome (outcome : ChunkOutcome) (now : Date) (current : SyncRun) : SyncRun :=
  let chunksCompleted := current.chunksCompleted + if outcome = .completed then 1 else 0
  let chunksFailed := current.chunksFailed + if outcome = .failed then 1 else 0
  let done := current.chunksTotal.any fun (chunksTotal : ℚ) => chunksTotal ≤ chunksCompleted
  { current with
    chunksCompleted := chunksCompleted
    chunksFailed := chunksFailed
    status := if done then .complete else current.status
    completedAt := if done then some now else current.completedAt }

end SyncRun

abbrev SyncRunDocs := String → Option SyncRun

inductive SyncCall where
  | create (runId tenantId : String) (resourceId : Option String)
  | finalizeTotal (runId : String) (chunksTotal : ℚ)
  | recordChunkOutcome (runId : String) (outcome : ChunkOutcome)
  deriving DecidableEq

/-- A call, at the time that its transaction reads. -/
structure Step where
  call : SyncCall
  now : Date
  deriving DecidableEq

def Step.apply (runs : SyncRunDocs) (step : Step) : SyncRunDocs :=
  match step.call with
  | .create runId tenantId resourceId =>
    Function.update runs runId (some (.create runId tenantId resourceId step.now))
  | .finalizeTotal runId chunksTotal =>
    Function.update runs runId ((runs runId).map (SyncRun.finalizeTotal chunksTotal step.now))
  | .recordChunkOutcome runId outcome =>
    Function.update runs runId ((runs runId).map (SyncRun.recordChunkOutcome outcome step.now))

def runAt (runId : String) (runs : SyncRunDocs) (steps : List Step) (i : ℕ) : Option SyncRun :=
  (steps.take i).foldl Step.apply runs runId

end Transactions

section Accounting

def recorded (runId : String) (outcome : ChunkOutcome) (steps : List Step) : ℕ :=
  steps.countP fun step => step.call = .recordChunkOutcome runId outcome

def SyncCall.totalOf (runId : String) : SyncCall → Option ℚ
  | .finalizeTotal runId' chunksTotal => if runId' = runId then some chunksTotal else none
  | _ => none

def totals (runId : String) (steps : List Step) : List ℚ := steps.filterMap fun step => step.call.totalOf runId

def SyncCall.creates (runId : String) : SyncCall → Bool
  | .create runId' _ _ => runId' = runId
  | _ => false

def SyncRun.reached (run : SyncRun) : Bool := run.chunksTotal.any fun (chunksTotal : ℚ) => chunksTotal ≤ run.chunksCompleted

structure SyncRun.Counts (run : SyncRun) (steps : List Step) (runId : String) : Prop where
  completed : run.chunksCompleted = recorded runId .completed steps
  failed : run.chunksFailed = recorded runId .failed steps
  total : run.chunksTotal = (totals runId steps).head?
  status : run.status = .complete ↔ run.reached = true

structure SyncRun.Settles (run run' : SyncRun) (now : Date) : Prop where
  stays : run.status = .complete → run'.status = .complete ∧ run'.completedAt = run.completedAt
  completes : run.status ≠ .complete → run'.completedAt = if run'.status = .complete then some now else none

structure Accounted (runId : String) (runs : SyncRunDocs) (steps : List Step) : Prop where
  counted (i : ℕ) : ∃ run, runAt runId runs steps i = some run ∧ run.Counts (steps.take i) runId
  settled (i : ℕ) (hi : i < steps.length) (run run' : SyncRun) : runAt runId runs steps i = some run →
    runAt runId runs steps (i + 1) = some run' → run.Settles run' steps[i].now

end Accounting

section Steps

variable {runId : String} {runs : SyncRunDocs} {steps before : List Step} {step : Step} {run : SyncRun} {call : SyncCall}
  {now : Date} {i : ℕ}

/-- What a call that does not create the run makes of it. -/
def SyncCall.effect (runId : String) (call : SyncCall) (now : Date) (run : SyncRun) : SyncRun :=
  match call with
  | .create _ _ _ => run
  | .finalizeTotal runId' chunksTotal => if runId' = runId then run.finalizeTotal chunksTotal now else run
  | .recordChunkOutcome runId' outcome => if runId' = runId then run.recordChunkOutcome outcome now else run

lemma update_map {runId' : String} {f : SyncRun → SyncRun} : Function.update runs runId' ((runs runId').map f) runId =
    (runs runId).map fun run => if runId' = runId then f run else run := by
  by_cases hid : runId' = runId
  · subst hid
    simp
  · simp [hid, Function.update_of_ne (Ne.symm hid)]

lemma apply_eq_effect (h : step.call.creates runId = false) :
    step.apply runs runId = (runs runId).map (step.call.effect runId step.now) := by
  obtain ⟨call, now⟩ := step
  cases call with
  | create runId' tenantId resourceId =>
    have hne : runId ≠ runId' := fun he => of_decide_eq_false h he.symm
    exact (Function.update_of_ne hne _ _).trans Option.map_id'.symm
  | finalizeTotal runId' chunksTotal => exact update_map
  | recordChunkOutcome runId' outcome => exact update_map

lemma runAt_succ (hi : i < steps.length) (h : steps[i].call.creates runId = false) :
    runAt runId runs steps (i + 1) = (runAt runId runs steps i).map (steps[i].call.effect runId steps[i].now) := by
  rw [runAt, List.take_succ_eq_append_getElem hi, List.foldl_append]
  exact apply_eq_effect h

structure SyncRun.Invariant (run : SyncRun) (before : List Step) (runId : String) : Prop extends run.Counts before runId where
  open_none : run.status ≠ .complete → run.completedAt = none
  complete_some : run.status = .complete → run.completedAt.isSome = true

lemma recorded_append (outcome : ChunkOutcome) : recorded runId outcome (before ++ [step]) =
    recorded runId outcome before + if step.call = .recordChunkOutcome runId outcome then 1 else 0 := by
  simp [recorded, List.countP_append, List.countP_singleton]

lemma totals_append : totals runId (before ++ [step]) = totals runId before ++ (step.call.totalOf runId).toList := by
  cases h : step.call.totalOf runId <;> simp [totals, h]

/-- A call of another run, or none that counts, changes nothing that is counted. -/
lemma SyncRun.Invariant.unchanged (h : run.Invariant before runId)
    (hrecord : ∀ outcome, step.call ≠ .recordChunkOutcome runId outcome) (htotal : step.call.totalOf runId = none) :
    run.Invariant (before ++ [step]) runId where
  completed := by rw [recorded_append, if_neg (hrecord _), Nat.add_zero, h.completed]
  failed := by rw [recorded_append, if_neg (hrecord _), Nat.add_zero, h.failed]
  total := by simp [totals_append, htotal, h.total]
  status := h.status
  open_none := h.open_none
  complete_some := h.complete_some

lemma SyncRun.Invariant.finalizeTotal {chunksTotal : ℚ} (h : run.Invariant before runId) (hnone : totals runId before = [])
    (hcall : step.call = .finalizeTotal runId chunksTotal) :
    (run.finalizeTotal chunksTotal now).Invariant (before ++ [step]) runId := by
  have hrecord (outcome : ChunkOutcome) : step.call ≠ .recordChunkOutcome runId outcome := by
    rw [hcall]
    nofun
  have htotal : step.call.totalOf runId = some chunksTotal := by
    rw [hcall]
    exact if_pos rfl
  have hopen : run.completedAt = none := by
    refine h.open_none fun hstatus => ?_
    have hreached := h.status.mp hstatus
    rw [SyncRun.reached, h.total, hnone] at hreached
    cases hreached
  refine ⟨⟨?_, ?_, ?_, ?_⟩, ?_, ?_⟩
  · rw [recorded_append, if_neg (hrecord _), Nat.add_zero, ← h.completed]
    rfl
  · rw [recorded_append, if_neg (hrecord _), Nat.add_zero, ← h.failed]
    rfl
  · rw [totals_append, hnone, htotal]
    rfl
  · by_cases hdone : chunksTotal ≤ run.chunksCompleted
    · simp [SyncRun.finalizeTotal, SyncRun.reached, hdone]
    · simp [SyncRun.finalizeTotal, SyncRun.reached, hdone]
  · by_cases hdone : chunksTotal ≤ run.chunksCompleted
    · simp [SyncRun.finalizeTotal, hdone]
    · simp [SyncRun.finalizeTotal, hdone, hopen]
  · by_cases hdone : chunksTotal ≤ run.chunksCompleted
    · simp [SyncRun.finalizeTotal, hdone, hopen]
    · simp [SyncRun.finalizeTotal, hdone]

lemma reached_recordChunkOutcome {outcome : ChunkOutcome} (h : run.reached = true) :
    (run.recordChunkOutcome outcome now).reached = true := by
  obtain ⟨chunksTotal, htotal, hle⟩ := (Option.any_eq_true _ _).mp h
  have hle' := of_decide_eq_true hle
  refine (Option.any_eq_true _ _).mpr ⟨chunksTotal, htotal, decide_eq_true (hle'.trans ?_)⟩
  exact_mod_cast Nat.le_add_right _ _

lemma SyncRun.Invariant.recordChunkOutcome {outcome : ChunkOutcome} (h : run.Invariant before runId)
    (hcall : step.call = .recordChunkOutcome runId outcome) :
    (run.recordChunkOutcome outcome now).Invariant (before ++ [step]) runId := by
  have htotal : step.call.totalOf runId = none := by
    rw [hcall]
    rfl
  have hstatus : (run.recordChunkOutcome outcome now).status =
      if (run.recordChunkOutcome outcome now).reached = true then .complete else run.status := rfl
  have hcompleted : (run.recordChunkOutcome outcome now).completedAt =
      if (run.recordChunkOutcome outcome now).reached = true then some now else run.completedAt := rfl
  refine ⟨⟨?_, ?_, ?_, ?_⟩, ?_, ?_⟩
  · rw [recorded_append, hcall, ← h.completed]
    simp [SyncRun.recordChunkOutcome]
  · rw [recorded_append, hcall, ← h.failed]
    simp [SyncRun.recordChunkOutcome]
  · rw [totals_append, htotal, Option.toList_none, List.append_nil, ← h.total]
    rfl
  · rw [hstatus]
    split
    · simp [*]
    · rename_i hopen
      exact ⟨fun hc => absurd (reached_recordChunkOutcome (h.status.mp hc)) hopen, fun hr => absurd hr hopen⟩
  · rw [hstatus, hcompleted]
    split
    · exact fun hne => absurd rfl hne
    · exact h.open_none
  · rw [hstatus, hcompleted]
    split
    · exact fun _ => rfl
    · exact h.complete_some

end Steps

section Runs

variable {runId : String} {runs : SyncRunDocs} {steps before : List Step} {step : Step} {run : SyncRun} {i : ℕ}

/-- At most one total is reported for the run, and the run is not created again. -/
structure Follows (runId : String) (steps : List Step) : Prop where
  total : (totals runId steps).length ≤ 1
  created (step : Step) : step ∈ steps → step.call.creates runId = false

instance (runId : String) (steps : List Step) : Decidable (Follows runId steps) :=
  decidable_of_iff ((totals runId steps).length ≤ 1 ∧ ∀ step ∈ steps, step.call.creates runId = false)
    ⟨fun h => ⟨h.1, h.2⟩, fun h => ⟨h.total, h.created⟩⟩

lemma Follows.first_total (h : Follows runId steps) (hi : i < steps.length) {chunksTotal : ℚ}
    (hcall : steps[i].call.totalOf runId = some chunksTotal) : totals runId (steps.take i) = [] := by
  have hsplit : totals runId steps = totals runId (steps.take (i + 1)) ++ totals runId (steps.drop (i + 1)) := by
    rw [totals, totals, totals, ← List.filterMap_append, List.take_append_drop]
  have hlength := h.total
  rw [hsplit, List.take_succ_eq_append_getElem hi, totals_append, hcall] at hlength
  refine List.eq_nil_of_length_eq_zero ?_
  simp only [List.length_append, Option.toList_some, List.length_singleton] at hlength
  omega

/-- The outcome of a chunk that is reported when the run is complete already is reported at the very
time of its completion. -/
def OnTime (runId : String) (runs : SyncRunDocs) (steps : List Step) : Prop :=
  ∀ (i : ℕ) (hi : i < steps.length) (outcome : ChunkOutcome) (run : SyncRun),
    steps[i].call = .recordChunkOutcome runId outcome → runAt runId runs steps i = some run →
      run.status = .complete → run.completedAt = some steps[i].now

lemma SyncRun.Invariant.effect (h : run.Invariant before runId)
    (hfirst : ∀ chunksTotal, step.call.totalOf runId = some chunksTotal → totals runId before = []) :
    (step.call.effect runId step.now run).Invariant (before ++ [step]) runId := by
  obtain ⟨call, now⟩ := step
  cases call with
  | create runId' tenantId resourceId => exact h.unchanged nofun rfl
  | finalizeTotal runId' chunksTotal =>
    by_cases hid : runId' = runId
    · subst hid
      rw [SyncCall.effect, if_pos rfl]
      exact h.finalizeTotal (hfirst chunksTotal (if_pos rfl)) rfl
    · rw [SyncCall.effect, if_neg hid]
      exact h.unchanged nofun (if_neg hid)
  | recordChunkOutcome runId' outcome =>
    by_cases hid : runId' = runId
    · subst hid
      rw [SyncCall.effect, if_pos rfl]
      exact h.recordChunkOutcome rfl
    · rw [SyncCall.effect, if_neg hid]
      refine h.unchanged (fun outcome' hcall => ?_) rfl
      exact hid (SyncCall.recordChunkOutcome.inj hcall).1

lemma settles_self (h : run.Invariant before runId) (now : Date) : run.Settles run now where
  stays hstatus := ⟨hstatus, rfl⟩
  completes hstatus := by rw [if_neg hstatus, h.open_none hstatus]

lemma settles_finalizeTotal {chunksTotal : ℚ} {now : Date} (h : run.Invariant before runId)
    (hnone : totals runId before = []) : run.Settles (run.finalizeTotal chunksTotal now) now := by
  have hopen : run.status ≠ .complete := by
    intro hstatus
    have hreached := h.status.mp hstatus
    rw [SyncRun.reached, h.total, hnone] at hreached
    cases hreached
  refine ⟨fun hstatus => absurd hstatus hopen, fun _ => ?_⟩
  have hcompleted := h.open_none hopen
  by_cases hdone : chunksTotal ≤ run.chunksCompleted
  · simp [SyncRun.finalizeTotal, hdone, hcompleted]
  · simp [SyncRun.finalizeTotal, hdone, hcompleted]

lemma settles_recordChunkOutcome_iff {outcome : ChunkOutcome} {now : Date} (h : run.Invariant before runId) :
    run.Settles (run.recordChunkOutcome outcome now) now ↔ (run.status = .complete → run.completedAt = some now) := by
  have hstatus : (run.recordChunkOutcome outcome now).status =
      if (run.recordChunkOutcome outcome now).reached = true then .complete else run.status := rfl
  have hcompleted : (run.recordChunkOutcome outcome now).completedAt =
      if (run.recordChunkOutcome outcome now).reached = true then some now else run.completedAt := rfl
  by_cases hc : run.status = .complete
  · have hreached : (run.recordChunkOutcome outcome now).reached = true :=
      reached_recordChunkOutcome (h.status.mp hc)
    rw [if_pos hreached] at hstatus hcompleted
    refine ⟨fun hs _ => (hs.stays hc).2.symm.trans hcompleted, fun ht => ⟨fun _ => ⟨hstatus, ?_⟩, absurd hc⟩⟩
    rw [hcompleted, ht hc]
  · refine ⟨fun _ hstatus => absurd hstatus hc, fun _ => ⟨fun hstatus => absurd hstatus hc, fun _ => ?_⟩⟩
    rw [hstatus, hcompleted]
    split
    · rfl
    · exact h.open_none hc

lemma settles_effect_iff (h : run.Invariant before runId)
    (hfirst : ∀ chunksTotal, step.call.totalOf runId = some chunksTotal → totals runId before = []) :
    run.Settles (step.call.effect runId step.now run) step.now ↔
      ∀ outcome, step.call = .recordChunkOutcome runId outcome → run.status = .complete →
        run.completedAt = some step.now := by
  obtain ⟨call, now⟩ := step
  cases call with
  | create runId' tenantId resourceId => exact iff_of_true (settles_self h now) nofun
  | finalizeTotal runId' chunksTotal =>
    refine iff_of_true ?_ nofun
    by_cases hid : runId' = runId
    · subst hid
      rw [SyncCall.effect, if_pos rfl]
      exact settles_finalizeTotal h (hfirst chunksTotal (if_pos rfl))
    · rw [SyncCall.effect, if_neg hid]
      exact settles_self h now
  | recordChunkOutcome runId' outcome =>
    by_cases hid : runId' = runId
    · subst hid
      rw [SyncCall.effect, if_pos rfl, settles_recordChunkOutcome_iff h]
      exact ⟨fun ht _ _ => ht, fun ht => ht outcome rfl⟩
    · rw [SyncCall.effect, if_neg hid]
      refine iff_of_true (settles_self h now) fun outcome' hcall => ?_
      exact absurd (SyncCall.recordChunkOutcome.inj hcall).1 hid

lemma exists_runAt (hstart : ∃ run, runs runId = some run ∧ run.Invariant [] runId) (h : Follows runId steps) (i : ℕ) :
    ∃ run, runAt runId runs steps i = some run ∧ run.Invariant (steps.take i) runId := by
  induction i with
  | zero => exact hstart
  | succ i ih =>
    obtain ⟨run, hrun, hinv⟩ := ih
    by_cases hi : i < steps.length
    · refine ⟨_, (runAt_succ hi (h.created _ (List.getElem_mem hi))).trans (congrArg (Option.map _) hrun), ?_⟩
      rw [List.take_succ_eq_append_getElem hi]
      exact hinv.effect fun chunksTotal hcall => h.first_total hi hcall
    · have htake : steps.take (i + 1) = steps.take i := by
        rw [List.take_of_length_le (by omega), List.take_of_length_le (by omega)]
      rw [runAt, htake]
      exact ⟨run, hrun, hinv⟩

lemma SyncRun.invariant_create {tenantId : String} {resourceId : Option String} {now : Date} :
    (SyncRun.create runId tenantId resourceId now).Invariant [] runId where
  completed := rfl
  failed := rfl
  total := rfl
  status := iff_of_false nofun nofun
  open_none _ := rfl
  complete_some := nofun

theorem accounted_iff {tenantId : String} {resourceId : Option String} {now : Date} (h : Follows runId steps) :
    Accounted runId (Step.apply runs ⟨.create runId tenantId resourceId, now⟩) steps ↔
      OnTime runId (Step.apply runs ⟨.create runId tenantId resourceId, now⟩) steps := by
  have hrun (i : ℕ) : ∃ run, runAt runId (Step.apply runs ⟨.create runId tenantId resourceId, now⟩) steps i = some run ∧
      run.Invariant (steps.take i) runId := exists_runAt ⟨_, Function.update_self _ _ _, SyncRun.invariant_create⟩ h i
  constructor
  · intro ha i hi outcome run hcall hat hstatus
    obtain ⟨run', hat', hinv⟩ := hrun i
    obtain rfl := Option.some.inj (hat.symm.trans hat')
    have hsucc := (runAt_succ hi (h.created _ (List.getElem_mem hi))).trans (congrArg (Option.map _) hat)
    have hsettles := ha.settled i hi run _ hat hsucc
    exact (settles_effect_iff hinv fun _ => h.first_total hi).mp hsettles outcome hcall hstatus
  · intro ht
    refine ⟨fun i => ?_, fun i hi run run' hat hat' => ?_⟩
    · obtain ⟨run, hat, hinv⟩ := hrun i
      exact ⟨run, hat, hinv.toCounts⟩
    · obtain ⟨run'', hat'', hinv⟩ := hrun i
      obtain rfl := Option.some.inj (hat.symm.trans hat'')
      have hsucc := (runAt_succ hi (h.created _ (List.getElem_mem hi))).trans (congrArg (Option.map _) hat)
      obtain rfl := Option.some.inj (hat'.symm.trans hsucc)
      exact (settles_effect_iff hinv fun _ => h.first_total hi).mpr fun outcome hcall => ht i hi outcome run hcall hat

/-- Chunks before and after the total is known, none after the last one. -/
theorem accounted_in_order : Accounted "r1" (Step.apply (fun _ => none) ⟨.create "r1" "acme" none, 0⟩)
    [⟨.recordChunkOutcome "r1" .completed, 1⟩, ⟨.finalizeTotal "r1" 2, 2⟩, ⟨.recordChunkOutcome "r1" .failed, 3⟩,
      ⟨.recordChunkOutcome "r1" .completed, 4⟩] := by
  refine (accounted_iff (by decide)).mpr fun i hi outcome run hcall hrun hstatus => ?_
  have hopen : ∀ i < 4, (runAt "r1" (Step.apply (fun _ => none) ⟨.create "r1" "acme" none, 0⟩)
      [⟨.recordChunkOutcome "r1" .completed, 1⟩, ⟨.finalizeTotal "r1" 2, 2⟩, ⟨.recordChunkOutcome "r1" .failed, 3⟩,
        ⟨.recordChunkOutcome "r1" .completed, 4⟩] i).any (fun run => run.status = .complete) = false := by
    decide +kernel
  have hany := hopen i hi
  rw [hrun, Option.any_some, hstatus] at hany
  cases hany

def redelivered : List Step :=
  [⟨.finalizeTotal "r1" 1, 1⟩, ⟨.recordChunkOutcome "r1" .completed, 2⟩, ⟨.recordChunkOutcome "r1" .completed, 3⟩]

theorem redelivery_moves_completion : Follows "r1" redelivered ∧
    ¬Accounted "r1" (Step.apply (fun _ => none) ⟨.create "r1" "acme" none, 0⟩) redelivered := by
  refine ⟨by decide, fun h => ?_⟩
  have hstays := (h.settled 2 (by decide) _ _ rfl rfl).stays (by decide +kernel)
  exact absurd hstays.2 (by decide +kernel)

end Runs

end ChameleonVault.SyncRuns
