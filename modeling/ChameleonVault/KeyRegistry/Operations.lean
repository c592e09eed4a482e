import ChameleonVault.Concurrency.Invariants
import ChameleonVault.KeyRegistry.KeyMetadata

/-! The callers of one key document: the registry methods and the key routes, as programs
over single reads and writes of Firestore and KMS. -/

namespace ChameleonVault.KeyRegistry

open Concurrency

inductive KeyOp where
  | get
  | write (w : KeyWrite)
  | ensureTenantKey
  | generateAndEncryptDek

def KeyOp.Res : KeyOp → Type
  | .get => Option KeyMetadata
  | .write _ => Unit
  | .ensureTenantKey => Unit
  | .generateAndEncryptDek => Dek

/-- A failing write may have reached the document before the caller saw the error. -/
inductive Outcome where
  | done
  | dek (bytes : Dek)
  | fail (committed : Bool)
  deriving DecidableEq

structure DocState where
  clock : Date
  doc : Option KeyMetadata

def unavailable : String := "UNAVAILABLE"

def KeyOp.exec : (op : KeyOp) → Outcome → DocState → Option (Except String op.Res × DocState)
  | .get, .done, s => some (.ok s.doc, s)
  | .write w, .done, s =>
    match w.apply s.clock s.doc with
    | .ok data => some (.ok (), { s with doc := some data })
    | .error e => some (.error e, s)
  | .ensureTenantKey, .done, s => some (.ok (), s)
  | .generateAndEncryptDek, .dek bytes, s => some (.ok bytes, s)
  | .write w, .fail true, s =>
    match w.apply s.clock s.doc with
    | .ok data => some (.error unavailable, { s with doc := some data })
    | .error _ => none
  | _, .fail _, s => some (.error unavailable, s)
  | _, _, _ => none

abbrev KeyCall := Call KeyOp KeyOp.Res String

def get : KeyCall (Option KeyMetadata) := perform KeyOp.get
def write (w : KeyWrite) : KeyCall Unit := perform (KeyOp.write w)
def ensureTenantKey : KeyCall Unit := perform KeyOp.ensureTenantKey
def generateAndEncryptDek : KeyCall Dek := perform KeyOp.generateAndEncryptDek

namespace FirestoreRegistry

def getKeyForUser (keyVersionId : Option String) : KeyCall (Option KeyData) := do
  let doc ← get
  match KeyRegistry.getKeyForUser doc keyVersionId with
  | .ok key => return key
  | .error e => throw e

def setKeyForUser (userId : String) (dek : Dek) : KeyCall Unit :=
  write (.set userId dek)

def rotateKeyForUser (newDek : Dek) : KeyCall String := do
  let doc ← get
  match doc with
  | none => throw "User key not found for rotation"
  | some data =>
    if data.status = .shredded ∨ data.activeDekId = none then
      throw "Cannot rotate a shredded key"
    else
      let newVersionId := versionId (data.deks.keys.length + 1)
      write (.rotate (data.deks.insert newVersionId newDek) newVersionId)
      return newVersionId

def shredKeyForUser (deletionRequestId : Option String) : KeyCall Unit :=
  write (.shred deletionRequestId)

def hasActiveKeyMaterial : KeyCall Bool := do
  let doc ← get
  return KeyRegistry.hasActiveKeyMaterial doc

def addDestinationToUser (destination : String) : KeyCall Unit :=
  tryCatch (write (.addDestination destination)) fun _ => return ()

end FirestoreRegistry

def keyGenerate (userId : String) : KeyCall String := do
  let existingKey ← FirestoreRegistry.getKeyForUser none
  if existingKey.isSome then return "EXISTS"
  else
    ensureTenantKey
    let encryptedDek ← generateAndEncryptDek
    FirestoreRegistry.setKeyForUser userId encryptedDek
    return "GENERATED"

def batchEntry (userId : String) : KeyCall String := do
  let existingKey ← FirestoreRegistry.getKeyForUser none
  if existingKey.isSome then return "EXISTS"
  else
    let encryptedDek ← generateAndEncryptDek
    FirestoreRegistry.setKeyForUser userId encryptedDek
    return "GENERATED"

def batchEntries (userId : String) : ℕ → KeyCall (List String)
  | 0 => return []
  | n + 1 => ExceptT.mk (Prog.awaitAll (fun r rs => .done (.ok (r :: rs)))
      (fun e => .done (.error e)) (batchEntry userId).run (batchEntries userId n).run)

def keysBatchGenerate (userId : String) (n : ℕ) : KeyCall (List String) := do
  ensureTenantKey
  batchEntries userId n

def keyRotate : KeyCall String := do
  ensureTenantKey
  let newEncryptedDek ← generateAndEncryptDek
  FirestoreRegistry.rotateKeyForUser newEncryptedDek

inductive KeyJob where
  | setKeyForUser (dek : Dek)
  | rotateKeyForUser (newDek : Dek)
  | shredKeyForUser (deletionRequestId : Option String)
  | getKeyForUser (keyVersionId : Option String)
  | hasActiveKeyMaterial
  | addDestinationToUser (destination : String)
  | keyGenerate
  | keysBatchGenerate (n : ℕ)
  | keyRotate

def ignore {α : Type} (x : KeyCall α) : Prog KeyOp (fun op => Except String op.Res) Unit :=
  x.run.bind fun _ => .done ()

def KeyJob.body (userId : String) : KeyJob → Prog KeyOp (fun op => Except String op.Res) Unit
  | .setKeyForUser dek => ignore (FirestoreRegistry.setKeyForUser userId dek)
  | .rotateKeyForUser newDek => ignore (FirestoreRegistry.rotateKeyForUser newDek)
  | .shredKeyForUser deletionRequestId => ignore (FirestoreRegistry.shredKeyForUser deletionRequestId)
  | .getKeyForUser keyVersionId => ignore (FirestoreRegistry.getKeyForUser keyVersionId)
  | .hasActiveKeyMaterial => ignore FirestoreRegistry.hasActiveKeyMaterial
  | .addDestinationToUser destination => ignore (FirestoreRegistry.addDestinationToUser destination)
  | .keyGenerate => ignore (KeyRegistry.keyGenerate userId)
  | .keysBatchGenerate n => ignore (KeyRegistry.keysBatchGenerate userId n)
  | .keyRotate => ignore KeyRegistry.keyRotate

abbrev keyDocument (userId : String) : Interleaving where
  State := DocState
  Op := KeyOp
  Ret := fun op => Except String op.Res
  Choice := Outcome
  Env := ℕ
  Job := KeyJob
  exec := KeyOp.exec
  env n s := some { s with clock := s.clock + n }
  body := KeyJob.body userId
  forks _ _ := []
  client _ := true

def noDocument (userId : String) (now : Date) : (keyDocument userId).Config :=
  Interleaving.initial ⟨now, none⟩

section Steps

variable {userId : String}

def commits : (keyDocument userId).Entry → Option KeyWrite
  | .act ⟨_, .write w, .done, .ok _⟩ => some w
  | .act ⟨_, .write w, .fail true, _⟩ => some w
  | _ => none

lemma exec_commits {a : (keyDocument userId).Action} {s s' : DocState}
    (h : KeyOp.exec a.op a.choice s = some (a.reply, s')) :
    match commits (.act a) with
    | some w => ∃ data, w.apply s.clock s.doc = .ok data ∧ s'.doc = some data
    | none => s'.doc = s.doc := by
  obtain ⟨t, op, choice, r⟩ := a
  simp only at h
  cases op with
  | write w =>
    cases choice with
    | done =>
      simp only [KeyOp.exec] at h
      split at h <;> obtain ⟨rfl, rfl⟩ := Option.some.inj h
      · exact ⟨_, by assumption, rfl⟩
      · rfl
    | dek bytes => simp [KeyOp.exec] at h
    | fail committed =>
      cases committed with
      | true =>
        simp only [KeyOp.exec] at h
        split at h <;> try contradiction
        obtain ⟨rfl, rfl⟩ := Option.some.inj h
        exact ⟨_, by assumption, rfl⟩
      | false =>
        obtain ⟨rfl, rfl⟩ := Option.some.inj h
        rfl
  | _ => cases choice <;> cases h <;> rfl

end Steps

end ChameleonVault.KeyRegistry
