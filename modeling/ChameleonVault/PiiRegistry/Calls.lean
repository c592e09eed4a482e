import ChameleonVault.PiiRegistry.Service

/-! What a call of the registry service has read and written so far. -/

namespace ChameleonVault.PiiRegistry

open Collections Concurrency Interleaving Discipline Call PiiRegistryService
open KeyRegistry (truthy_eq_some_iff)

/-- A write that the store has confirmed and the memory does not show yet. -/
inductive Pending where
  | upserted (tenantId : String) (entry : PiiRegistryEntry)
  | deleted (tenantId resourceId : String)
  | advanced (mark : SyncMark) (tenantId resourceId : String) (existing : PiiRegistryEntry) (stored : String)

structure Knowledge where
  existing : Option (String × String × PiiRegistryEntry) := none
  pending : Option Pending := none

def Knowledge.hasRead (q : Knowledge) (tenantId resourceId : String) (existing : PiiRegistryEntry) : Prop :=
  q.existing = some (tenantId, resourceId, existing) ∧ existing.isManual = true

def calls : Discipline Op (fun op => Except RegistryError op.Res) Knowledge where
  start := {}
  allowed q
    | .getEntry _ _ => q.pending = none
    | .upsert tenantId entry => q.pending = none ∧ entry.isManual = true ∧ entry.tenantId = some tenantId ∧ tenantId ≠ ""
    | .delete tenantId resourceId => q.pending = none ∧ ∃ existing, q.hasRead tenantId resourceId existing
    | .advance _ tenantId resourceId _ => q.pending = none ∧ ∃ existing, q.hasRead tenantId resourceId existing
    | .setEntry tenantId resourceId entry none =>
        q.pending = some (.upserted tenantId entry) ∧ resourceId = entry.resourceId
    | .setEntry tenantId resourceId entry (some mark) => ∃ existing stored,
        q.pending = some (.advanced mark tenantId resourceId existing stored) ∧ entry = mark.write stored existing
    | .deleteEntry tenantId resourceId => q.pending = some (.deleted tenantId resourceId)
  next q
    | .getEntry tenantId resourceId, .ok existing => { q with existing := existing.map (tenantId, resourceId, ·) }
    | .upsert tenantId entry, .ok _ => { q with pending := some (.upserted tenantId entry) }
    | .delete tenantId resourceId, .ok _ => { q with pending := some (.deleted tenantId resourceId) }
    | .advance mark tenantId resourceId _, .ok stored =>
        { q with pending := q.existing.map fun read => .advanced mark tenantId resourceId read.2.2 stored }
    | .setEntry _ _ _ _, .ok _ => { q with pending := none }
    | .deleteEntry _ _, .ok _ => { q with pending := none }
    | _, _ => q
  possible
    | .setEntry _ _ _ _, reply => reply = .ok ()
    | .deleteEntry _ _, reply => reply = .ok ()
    | _, _ => True

abbrev Settled (q : Knowledge) : Prop := q.pending = none

lemma upsertEntry_keeps (entry : PiiRegistryEntry) :
    calls.Keeps {} (upsertEntry entry) (fun _ => Settled) (fun _ => Settled) := by
  rw [upsertEntry]
  split
  · rename_i hmanual
    split
    · exact Keeps.throw rfl
    · rename_i tenantId ht
      obtain ⟨hsome, hne⟩ := truthy_eq_some_iff.mp ht
      apply Keeps.bind
      refine Keeps.perform ⟨rfl, hmanual, hsome, hne⟩ (fun _ _ => ?_) (fun _ _ => rfl)
      apply Keeps.bind
      refine Keeps.perform ⟨rfl, rfl⟩ (fun _ _ => ?_) (fun _ h => nomatch h)
      exact Keeps.pure rfl
  · exact Keeps.throw rfl

lemma removeEntry_keeps (resourceId tenantId : String) :
    calls.Keeps {} (removeEntry resourceId tenantId) (fun _ => Settled) (fun _ => Settled) := by
  apply Keeps.bind
  refine Keeps.perform rfl (fun existing _ => ?_) (fun _ _ => rfl)
  cases existing with
  | none => exact Keeps.pure rfl
  | some existing =>
    simp only
    split
    · rename_i hmanual
      apply Keeps.bind
      refine Keeps.perform ⟨rfl, existing, rfl, hmanual⟩ (fun _ _ => ?_) (fun _ _ => rfl)
      apply Keeps.bind
      refine Keeps.perform rfl (fun _ _ => ?_) (fun _ h => nomatch h)
      exact Keeps.pure rfl
    · exact Keeps.throw rfl

lemma markResource_keeps (mark : SyncMark) (resourceId tenantId candidateIso : String) :
    calls.Keeps {} (markResource mark resourceId tenantId candidateIso) (fun _ => Settled) (fun _ => Settled) := by
  apply Keeps.bind
  refine Keeps.perform rfl (fun existing _ => ?_) (fun _ _ => rfl)
  cases existing with
  | none => exact Keeps.pure rfl
  | some existing =>
    simp only
    split
    · rename_i hmanual
      apply Keeps.bind
      refine Keeps.perform ⟨rfl, existing, rfl, hmanual⟩ (fun stored _ => ?_) (fun _ _ => rfl)
      apply Keeps.bind
      refine Keeps.perform ⟨existing, stored, rfl, rfl⟩ (fun _ _ => ?_) (fun _ h => nomatch h)
      exact Keeps.pure rfl
    · exact Keeps.throw rfl

lemma calls_follows (j : Job) : calls.Follows calls.start j.body (fun _ => Settled) := by
  have ignored {α : Type} {x : Service α} (hx : calls.Keeps {} x (fun _ => Settled) (fun _ => Settled)) :
      calls.Follows {} (ignore x) (fun _ => Settled) := by
    refine Follows.bind (Follows.mono hx ?_)
    rintro (e | a) q hq
    · exact hq
    · exact hq
  cases j with
  | upsertEntry entry => exact ignored (upsertEntry_keeps entry)
  | removeEntry resourceId tenantId => exact ignored (removeEntry_keeps resourceId tenantId)
  | markResourceSynced resourceId tenantId candidateIso => exact ignored (markResource_keeps .synced _ _ _)
  | markResourceSyncAttempted resourceId tenantId candidateIso => exact ignored (markResource_keeps .attempted _ _ _)

variable {getTime : String → Option ℤ}

lemma exec_possible {op : Op} {outcome : Outcome} {s s' : Registry} {reply : Except RegistryError op.Res}
    (h : op.exec getTime outcome s = some (reply, s')) : calls.possible op reply := by
  cases op
  case setEntry => exact (Prod.mk.inj (Option.some.inj h)).1.symm
  case deleteEntry => exact (Prod.mk.inj (Option.some.inj h)).1.symm
  all_goals trivial

lemma calls_governs (getTime : String → Option ℤ) : Governs (S := registry getTime) calls (fun _ => True) where
  body j := (calls_follows j).mono fun _ _ _ => trivial
  exec _ he := ⟨exec_possible he, trivial⟩
  env _ _ := trivial

end ChameleonVault.PiiRegistry
