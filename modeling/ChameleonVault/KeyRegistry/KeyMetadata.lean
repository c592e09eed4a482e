import Mathlib.Data.List.AList

/-! The key document of one (tenant, user) and the reads and writes of `FirestoreRegistry`. -/

namespace ChameleonVault.KeyRegistry

abbrev Date := ℕ

/-- The stored string is the base64 form of the bytes: empty exactly when there are none. -/
abbrev Dek := List UInt8

abbrev Deks := AList (fun _ : String => Dek)

inductive KeyState where
  | active | rotated | shredded | deleted
  deriving DecidableEq, Repr

structure Tokenization where
  algorithm : String
  tokenKeyId : String
  deriving DecidableEq, Repr

/-- A shred of a user without a key creates a document with the shredded fields only. -/
structure KeyMetadata where
  userId : Option String := none
  deks : Deks := ∅
  activeDekId : Option String := none
  status : KeyState
  createdAt : Option Date := none
  shredAt : Option Date := none
  rotatedAt : Option Date := none
  encryptionVersion : Option String := none
  tokenization : Option Tokenization := none
  deletionRequestId : Option String := none
  destinations : Option (List String) := none

def getDocId (tenantId userId : String) : String := tenantId ++ ":" ++ userId

def truthy : Option String → Option String
  | some s => if s = "" then none else some s
  | none => none

lemma truthy_eq_some_iff {o : Option String} {value : String} : truthy o = some value ↔ o = some value ∧ value ≠ "" := by
  cases o with
  | none => exact ⟨nofun, fun h => nomatch h.1⟩
  | some value' =>
    simp only [truthy, Option.ite_none_left_eq_some, Option.some.injEq]
    constructor
    · rintro ⟨hne, rfl⟩
      exact ⟨rfl, hne⟩
    · rintro ⟨rfl, hne⟩
      exact ⟨hne, rfl⟩

def arrayUnion {α : Type} [DecidableEq α] (xs : List α) (x : α) : List α :=
  if x ∈ xs then xs else xs ++ [x]

def versionId (n : ℕ) : String := "v" ++ toString n

structure KeyData where
  encryptedDek : Dek
  activeDekId : Option String
  encryptionVersion : String
  deriving DecidableEq

/-- Names that any object inherits: looking one up gives a function or an object, and
`Buffer.from` throws on it. -/
def objectPrototypeNames : List String :=
  ["constructor", "__defineGetter__", "__defineSetter__", "hasOwnProperty", "__lookupGetter__",
    "__lookupSetter__", "isPrototypeOf", "propertyIsEnumerable", "toString", "valueOf",
    "__proto__", "toLocaleString"]

def getKeyForUser (doc : Option KeyMetadata) (keyVersionId : Option String) :
    Except String (Option KeyData) :=
  match doc with
  | none => .ok none
  | some data =>
    if data.status = .shredded ∨ data.status = .deleted ∨ data.deks.keys.length = 0 then .ok none
    else match truthy ((truthy keyVersionId).orElse fun _ => data.activeDekId) with
      | none => .ok none
      | some targetDekId =>
        match data.deks.lookup targetDekId with
        | some dek =>
          if dek = [] then .ok none
          else .ok (some ⟨dek, data.activeDekId, (truthy data.encryptionVersion).getD "v1"⟩)
        | none =>
          if targetDekId ∈ objectPrototypeNames then .error "ERR_INVALID_ARG_TYPE" else .ok none

def hasActiveKeyMaterial : Option KeyMetadata → Bool
  | none => false
  | some data =>
    (data.status == .active || data.status == .rotated) && decide (0 < data.deks.keys.length)

structure KeyStatus where
  status : KeyState
  createdAt : Date
  shredAt : Option Date
  rotatedAt : Option Date
  activeDekId : Option String
  destinations : Option (List String)

def getKeyStatus (now : Date) (doc : Option KeyMetadata) : Option KeyStatus :=
  doc.map fun data =>
    ⟨data.status, data.createdAt.getD now, data.shredAt, data.rotatedAt, data.activeDekId,
      data.destinations⟩

/-- The writes: `set` without merge, `update` by a rotation, `set` with merge by a shred,
`update` of the destinations. -/
inductive KeyWrite where
  | set (userId : String) (dek : Dek)
  | rotate (deks : Deks) (activeDekId : String)
  | shred (deletionRequestId : Option String)
  | addDestination (destination : String)

def initialVersion (dek : Dek) : Deks := (∅ : Deks).insert (versionId 1) dek

def KeyWrite.apply (now : Date) : KeyWrite → Option KeyMetadata → Except String KeyMetadata
  | .set userId dek, _ => .ok {
      userId := some userId
      deks := initialVersion dek
      activeDekId := some (versionId 1)
      status := .active
      createdAt := some now
      encryptionVersion := some "v2"
      tokenization := some ⟨"HMAC-SHA256", "chameleon-token-key-v1"⟩ }
  | .rotate deks activeDekId, some data => .ok { data with
      deks := deks, activeDekId := some activeDekId, status := .active, rotatedAt := some now }
  | .rotate _ _, none => .error "NOT_FOUND"
  | .shred deletionRequestId, doc =>
      let data := doc.getD { status := .shredded }
      .ok { data with
        deks := ∅
        activeDekId := none
        status := .shredded
        shredAt := some now
        deletionRequestId := (truthy deletionRequestId).orElse fun _ => data.deletionRequestId }
  | .addDestination destination, some data => .ok { data with
      destinations := some (arrayUnion (data.destinations.getD []) destination) }
  | .addDestination _, none => .error "NOT_FOUND"

end ChameleonVault.KeyRegistry
