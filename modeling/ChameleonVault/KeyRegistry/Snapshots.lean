import ChameleonVault.KeyRegistry.Operations

/-! A rotation computes its update from an earlier read, so each caller is followed together
with the document it read last. -/

namespace ChameleonVault.KeyRegistry

open Concurrency Discipline

def snapshots : Discipline KeyOp (fun op => Except String op.Res) (Option KeyMetadata) where
  start := none
  allowed snapshot
    | .write (.rotate deks activeDekId) => ∃ data newDek, snapshot = some data ∧
        activeDekId = versionId (data.deks.keys.length + 1) ∧ deks = data.deks.insert activeDekId newDek
    | _ => True
  next snapshot
    | .get, .ok doc => doc
    | _, _ => snapshot
  possible _ _ := True

abbrev Always (op : KeyOp) : Prop := ∀ snapshot, snapshots.allowed snapshot op

lemma uses_getKeyForUser (version : Option String) :
    (FirestoreRegistry.getKeyForUser version).run.Uses Always := by
  apply Call.uses_bind
  · exact Call.uses_perform fun _ => trivial
  · intro doc
    split
    · exact Call.uses_pure _
    · exact Call.uses_throw _

lemma uses_setKeyForUser (userId : String) (dek : Dek) :
    (FirestoreRegistry.setKeyForUser userId dek).run.Uses Always :=
  Call.uses_perform fun _ => trivial

lemma uses_batchEntry (userId : String) : (batchEntry userId).run.Uses Always := by
  apply Call.uses_bind (uses_getKeyForUser none)
  intro existingKey
  split
  · exact Call.uses_pure _
  · apply Call.uses_bind
    · exact Call.uses_perform fun _ => trivial
    · intro dek
      exact Call.uses_bind (uses_setKeyForUser userId dek) (fun _ => Call.uses_pure _)

lemma uses_batchEntries (userId : String) (n : ℕ) : (batchEntries userId n).run.Uses Always := by
  induction n with
  | zero => exact Call.uses_pure _
  | succ n ih => exact .awaitAll (uses_batchEntry userId) ih (fun _ _ => trivial) (fun _ => trivial)

lemma uses_keyGenerate (userId : String) : (keyGenerate userId).run.Uses Always := by
  apply Call.uses_bind (uses_getKeyForUser none)
  intro existingKey
  split
  · exact Call.uses_pure _
  · apply Call.uses_bind
    · exact Call.uses_perform fun _ => trivial
    · intro _
      apply Call.uses_bind
      · exact Call.uses_perform fun _ => trivial
      · intro dek
        exact Call.uses_bind (uses_setKeyForUser userId dek) (fun _ => Call.uses_pure _)

lemma rotateKeyForUser_keeps (newDek : Dek) (snapshot : Option KeyMetadata) :
    snapshots.Keeps snapshot (FirestoreRegistry.rotateKeyForUser newDek) (fun _ _ => True) (fun _ _ => True) := by
  apply Keeps.bind
  refine Keeps.perform trivial (fun doc _ => ?_) (fun _ _ => trivial)
  cases doc with
  | none => exact Keeps.throw trivial
  | some data =>
    simp only
    split
    · exact Keeps.throw trivial
    · apply Keeps.bind
      refine Keeps.perform ⟨data, newDek, rfl, rfl, rfl⟩ (fun _ _ => ?_) (fun _ _ => trivial)
      exact Keeps.pure trivial

lemma keyRotate_keeps (snapshot : Option KeyMetadata) :
    snapshots.Keeps snapshot keyRotate (fun _ _ => True) (fun _ _ => True) := by
  apply Keeps.bind
  refine Keeps.perform trivial (fun _ _ => ?_) (fun _ _ => trivial)
  apply Keeps.bind
  exact Keeps.perform trivial (fun newDek _ => rotateKeyForUser_keeps newDek _) (fun _ _ => trivial)

lemma ignore_follows {α : Type} {x : KeyCall α} {snapshot : Option KeyMetadata}
    (h : snapshots.Keeps snapshot x (fun _ _ => True) (fun _ _ => True)) :
    snapshots.Follows snapshot (ignore x) (fun _ _ => True) :=
  Follows.bind (Follows.mono h (fun _ _ _ => trivial))

lemma ignore_uses {α : Type} {x : KeyCall α} (h : x.run.Uses Always) : (ignore x).Uses Always :=
  .bind h (fun _ => trivial)

def KeyJob.rotates : KeyJob → Bool
  | .rotateKeyForUser _ | .keyRotate => true
  | _ => false

lemma uses_keyJob (userId : String) {j : KeyJob} (h : j.rotates = false) : (j.body userId).Uses Always := by
  cases j with
  | setKeyForUser dek => exact ignore_uses (uses_setKeyForUser userId dek)
  | shredKeyForUser request => exact ignore_uses (Call.uses_perform fun _ => trivial)
  | getKeyForUser version => exact ignore_uses (uses_getKeyForUser version)
  | hasActiveKeyMaterial =>
    exact ignore_uses (Call.uses_bind (Call.uses_perform fun _ => trivial) fun _ => Call.uses_pure _)
  | addDestinationToUser destination =>
    exact ignore_uses (Call.uses_tryCatch (Call.uses_perform fun _ => trivial) fun _ => Call.uses_pure _)
  | keyGenerate => exact ignore_uses (uses_keyGenerate userId)
  | keysBatchGenerate n =>
    exact ignore_uses (Call.uses_bind (Call.uses_perform fun _ => trivial) fun _ => uses_batchEntries userId n)
  | rotateKeyForUser newDek | keyRotate => cases h

lemma snapshots_governs (userId : String) :
    Governs (S := keyDocument userId) snapshots (fun _ => True) := by
  refine ⟨fun j => ?_, fun _ _ => ⟨trivial, trivial⟩, fun _ _ => trivial⟩
  cases hj : j.rotates with
  | false => exact .of_always (uses_keyJob userId hj)
  | true =>
    cases j with
    | rotateKeyForUser newDek => exact ignore_follows (rotateKeyForUser_keeps newDek _)
    | keyRotate => exact ignore_follows (keyRotate_keeps _)
    | _ => cases hj

end ChameleonVault.KeyRegistry
