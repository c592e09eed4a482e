import ChameleonVault.Concurrency.Invariants
import ChameleonVault.PiiRegistry.Entries

/-! The registry service: entries served from memory, their declarations in the durable store, and
the calls that write the store first and the memory after it. -/

namespace ChameleonVault.PiiRegistry

open Collections Concurrency Call
open KeyRegistry (truthy)

structure Registry where
  entries : OrderedMap String PiiRegistryEntry
  documents : AList (fun _ : String => PiiRegistryEntry)

section Startup

def composePiiRegistry (connectorEntries dbtEntries manualEntries : List PiiRegistryEntry) : List PiiRegistryEntry :=
  if dbtEntries = [] then connectorEntries ++ manualEntries
  else (connectorEntries.filter fun entry => entry.ownerConnector ≠ "dbt") ++ dbtEntries ++ manualEntries

def serve (entries : List PiiRegistryEntry) : OrderedMap String PiiRegistryEntry :=
  .ofList (entries.map fun entry => (entry.key, entry))

-- a document under a longer path is in a collection of its own
def loadAll (documents : AList (fun _ : String => PiiRegistryEntry)) : List PiiRegistryEntry :=
  (documents.entries.filter fun document => isTopLevel document.1).map Sigma.snd

structure Platform where
  connectorEntries : List PiiRegistryEntry
  dbtEntries : List PiiRegistryEntry

def Platform.startup (p : Platform) (documents : AList (fun _ : String => PiiRegistryEntry)) :
    OrderedMap String PiiRegistryEntry :=
  serve (composePiiRegistry p.connectorEntries p.dbtEntries (loadAll documents))

def Platform.boot (p : Platform) (documents : AList (fun _ : String => PiiRegistryEntry)) : Registry :=
  ⟨p.startup documents, documents⟩

end Startup

section Reads

structure Filters where
  tenantId : Option String := none
  system : Option Deletion.PiiSystem := none
  ownerConnector : Option String := none
  scanEnabled : Option Bool := none
  actorEmail : Option String := none

def visibleTo (tenantId : Option String) (entry : PiiRegistryEntry) : Bool :=
  tenantId.all fun tenantId => entry.tenantId = none || entry.tenantId = some tenantId

def listEntries (filters : Filters) (s : Registry) : List PiiRegistryEntry :=
  ((((s.entries.values.filter (visibleTo filters.tenantId)).filter
      fun entry => filters.system.all fun system => entry.system = system).filter
      fun entry => (truthy filters.ownerConnector).all fun owner => entry.ownerConnector = owner).filter
      fun entry => filters.scanEnabled.all fun enabled => entry.ghostDataScan.enabled = enabled).filter
      fun entry => (truthy filters.actorEmail).all fun email =>
        entry.declaredBy = some email || entry.lastModifiedBy = some email

def getEntry (resourceId : String) (tenantId : Option String) (s : Registry) : Option PiiRegistryEntry :=
  match tenantId with
  | some tenantId => (s.entries.get? (keyOf (some tenantId) resourceId)).or (s.entries.get? (keyOf none resourceId))
  | none =>
    (s.entries.get? (keyOf none resourceId)).or (s.entries.values.find? fun entry => entry.resourceId = resourceId)

end Reads

section Marks

inductive SyncMark where
  | synced | attempted
  deriving DecidableEq

namespace SyncMark

def timestamp : SyncMark → PiiRegistryEntry → Option String
  | .synced, entry => entry.lastSyncedAt
  | .attempted, entry => entry.lastSyncAttemptAt

def write (stored : String) : SyncMark → PiiRegistryEntry → PiiRegistryEntry
  | .synced, entry => { entry with lastSyncedAt := some stored }
  | .attempted, entry => { entry with lastSyncAttemptAt := some stored }

def verb : SyncMark → String
  | .synced => "synced"
  | .attempted => "sync-attempted"

@[simp] lemma timestamp_write (m : SyncMark) (stored : String) (entry : PiiRegistryEntry) :
    m.timestamp (m.write stored entry) = some stored := by
  cases m <;> rfl

lemma timestamp_write_ne {m m' : SyncMark} (h : m' ≠ m) (stored : String) (entry : PiiRegistryEntry) :
    m'.timestamp (m.write stored entry) = m'.timestamp entry := by
  cases m <;> cases m' <;> first | rfl | contradiction

@[simp] lemma write_write (m : SyncMark) (stored stored' : String) (entry : PiiRegistryEntry) :
    m.write stored (m.write stored' entry) = m.write stored entry := by
  cases m <;> rfl

lemma write_timestamp {m : SyncMark} {stored : String} {entry : PiiRegistryEntry}
    (h : m.timestamp entry = some stored) : m.write stored entry = entry := by
  cases m with
  | synced =>
    have hs : entry.lastSyncedAt = some stored := h
    rw [write, ← hs]
  | attempted =>
    have hs : entry.lastSyncAttemptAt = some stored := h
    rw [write, ← hs]

end SyncMark

/-- `new Date(current).getTime() >= new Date(candidate).getTime()`, where an invalid date has no time. -/
def isUpToDate (getTime : String → Option ℤ) (current candidate : String) : Bool :=
  match getTime current, getTime candidate with
  | some current, some candidate => candidate ≤ current
  | _, _ => false

end Marks

inductive RegistryMutationErrorCode where
  | immutableOwner | missingTenant
  deriving DecidableEq

inductive RegistryError where
  | mutation (message : String) (code : RegistryMutationErrorCode)
  | store (message : String)
  deriving DecidableEq

/-- The memory's operations are told the tenant and the resource of the call they are made for. -/
inductive Op where
  | getEntry (tenantId resourceId : String)
  | setEntry (tenantId resourceId : String) (entry : PiiRegistryEntry) (mark : Option SyncMark)
  | deleteEntry (tenantId resourceId : String)
  | upsert (tenantId : String) (entry : PiiRegistryEntry)
  | delete (tenantId resourceId : String)
  | advance (mark : SyncMark) (tenantId resourceId candidateIso : String)

def Op.Res : Op → Type
  | .getEntry _ _ => Option PiiRegistryEntry
  | .advance _ _ _ _ => String
  | _ => Unit

/-- An unconfirmed write took effect, but its caller saw an error. -/
inductive Outcome where
  | done
  | failed
  | unconfirmed
  deriving DecidableEq

namespace Registry

def upsert (tenantId : String) (entry : PiiRegistryEntry) (s : Registry) : Registry :=
  let id := docId tenantId entry.resourceId
  { s with documents := s.documents.insert id (writeDoc (s.documents.lookup id) entry) }

def delete (tenantId resourceId : String) (s : Registry) : Registry :=
  { s with documents := s.documents.erase (docId tenantId resourceId) }

def setEntry (tenantId resourceId : String) (entry : PiiRegistryEntry) (s : Registry) : Registry :=
  { s with entries := s.entries.set (keyOf (some tenantId) resourceId) entry }

def deleteEntry (tenantId resourceId : String) (s : Registry) : Registry :=
  { s with entries := s.entries.erase (keyOf (some tenantId) resourceId) }

def advance (getTime : String → Option ℤ) (mark : SyncMark) (tenantId resourceId candidateIso : String)
    (s : Registry) : Except RegistryError (String × Registry) :=
  let id := docId tenantId resourceId
  match s.documents.lookup id with
  | none => .error (.store ("No declaration found for " ++ resourceId ++ " (tenant " ++ tenantId ++ ") to mark "
      ++ mark.verb ++ "."))
  | some document =>
    let write := .ok (candidateIso, { s with documents := s.documents.insert id (mark.write candidateIso document) })
    match truthy (mark.timestamp document) with
    | some current => if isUpToDate getTime current candidateIso then .ok (current, s) else write
    | none => write

end Registry

def unavailable : RegistryError := .store "UNAVAILABLE"

def runStore {α : Type} (apply : Registry → Except RegistryError (α × Registry)) (outcome : Outcome) (s : Registry) :
    Option (Except RegistryError α × Registry) :=
  match outcome, apply s with
  | .done, .ok (a, s') => some (.ok a, s')
  | .done, .error e => some (.error e, s)
  | .failed, _ => some (.error unavailable, s)
  | .unconfirmed, .ok (_, s') => some (.error unavailable, s')
  | .unconfirmed, .error _ => none

lemma runStore_cases {α : Type} {apply : Registry → Except RegistryError (α × Registry)} {outcome : Outcome}
    {s s' : Registry} {reply : Except RegistryError α} (h : runStore apply outcome s = some (reply, s')) :
    (∃ a, apply s = .ok (a, s') ∧ (outcome = .done ∧ reply = .ok a ∨ outcome = .unconfirmed ∧ reply = .error unavailable)) ∨
      s' = s ∧ outcome ≠ .unconfirmed ∧ ∃ err, reply = .error err := by
  cases happly : apply s with
  | error err =>
    cases outcome <;> simp only [runStore, happly, Option.some.injEq, Prod.mk.injEq, reduceCtorEq] at h
    · exact .inr ⟨h.2.symm, nofun, err, h.1.symm⟩
    · exact .inr ⟨h.2.symm, nofun, unavailable, h.1.symm⟩
  | ok result =>
    obtain ⟨a, s''⟩ := result
    cases outcome <;> simp only [runStore, happly, Option.some.injEq, Prod.mk.injEq] at h
    · exact .inl ⟨a, by rw [h.2], .inl ⟨rfl, h.1.symm⟩⟩
    · exact .inr ⟨h.2.symm, nofun, unavailable, h.1.symm⟩
    · exact .inl ⟨a, by rw [h.2], .inr ⟨rfl, h.1.symm⟩⟩

lemma runStore_ok {α : Type} {apply : Registry → Except RegistryError (α × Registry)} {outcome : Outcome}
    {s s' : Registry} {a : α} (h : runStore apply outcome s = some (.ok a, s')) :
    outcome = .done ∧ apply s = .ok (a, s') := by
  rcases runStore_cases h with ⟨a', happly, ⟨hd, ha⟩ | ⟨-, ha⟩⟩ | ⟨-, -, err, ha⟩
  · obtain rfl := Except.ok.inj ha
    exact ⟨hd, happly⟩
  · contradiction
  · contradiction

lemma runStore_error {α : Type} {apply : Registry → Except RegistryError (α × Registry)} {outcome : Outcome}
    {s s' : Registry} {err : RegistryError} (h : runStore apply outcome s = some (.error err, s'))
    (hu : outcome ≠ .unconfirmed) : s' = s := by
  rcases runStore_cases h with ⟨a, -, ⟨-, ha⟩ | ⟨hu', -⟩⟩ | ⟨hs, -⟩
  · contradiction
  · exact absurd hu' hu
  · exact hs

lemma advance_cases {getTime : String → Option ℤ} {mark : SyncMark} {tenantId resourceId candidateIso stored : String}
    {s s' : Registry} (h : s.advance getTime mark tenantId resourceId candidateIso = .ok (stored, s')) :
    ∃ document, s.documents.lookup (docId tenantId resourceId) = some document ∧
      ((truthy (mark.timestamp document) = some stored ∧ isUpToDate getTime stored candidateIso = true ∧ s' = s) ∨
        (stored = candidateIso ∧ (∀ current, truthy (mark.timestamp document) = some current →
            isUpToDate getTime current candidateIso = false) ∧
          s' = { s with documents :=
            s.documents.insert (docId tenantId resourceId) (mark.write candidateIso document) })) := by
  simp only [Registry.advance] at h
  split at h
  · contradiction
  · rename_i document hd
    refine ⟨document, hd, ?_⟩
    split at h
    · rename_i current hc
      split at h
      · rename_i hup
        obtain ⟨rfl, rfl⟩ := Prod.mk.inj (Except.ok.inj h)
        exact .inl ⟨hc, hup, rfl⟩
      · rename_i hup
        obtain ⟨rfl, rfl⟩ := Prod.mk.inj (Except.ok.inj h)
        refine .inr ⟨rfl, fun current' hc' => ?_, rfl⟩
        rw [← Option.some.inj (hc.symm.trans hc')]
        exact Bool.eq_false_iff.mpr hup
    · rename_i hn
      obtain ⟨rfl, rfl⟩ := Prod.mk.inj (Except.ok.inj h)
      refine .inr ⟨rfl, fun current hc => ?_, rfl⟩
      rw [hn] at hc
      contradiction

def Op.exec (getTime : String → Option ℤ) : (op : Op) → Outcome → Registry →
    Option (Except RegistryError op.Res × Registry)
  | .getEntry tenantId resourceId, _, s => some (.ok (s.entries.get? (keyOf (some tenantId) resourceId)), s)
  | .setEntry tenantId resourceId entry _, _, s => some (.ok (), s.setEntry tenantId resourceId entry)
  | .deleteEntry tenantId resourceId, _, s => some (.ok (), s.deleteEntry tenantId resourceId)
  | .upsert tenantId entry, outcome, s => runStore (fun s => .ok ((), s.upsert tenantId entry)) outcome s
  | .delete tenantId resourceId, outcome, s => runStore (fun s => .ok ((), s.delete tenantId resourceId)) outcome s
  | .advance mark tenantId resourceId candidateIso, outcome, s =>
    runStore (Registry.advance getTime mark tenantId resourceId candidateIso) outcome s

section Exec

variable {getTime : String → Option ℤ} {outcome : Outcome} {s : Registry} {tenantId resourceId : String}

lemma exec_upsert {entry : PiiRegistryEntry} : (Op.upsert tenantId entry).exec getTime outcome s =
    runStore (fun s => .ok ((), s.upsert tenantId entry)) outcome s := rfl

lemma exec_delete : (Op.delete tenantId resourceId).exec getTime outcome s =
    runStore (fun s => .ok ((), s.delete tenantId resourceId)) outcome s := rfl

lemma exec_advance {mark : SyncMark} {candidateIso : String} :
    (Op.advance mark tenantId resourceId candidateIso).exec getTime outcome s =
      runStore (Registry.advance getTime mark tenantId resourceId candidateIso) outcome s := rfl

end Exec

abbrev Service := Call Op Op.Res RegistryError

namespace PiiRegistryService

def upsertEntry (entry : PiiRegistryEntry) : Service PiiRegistryEntry :=
  if entry.isManual then
    match truthy entry.tenantId with
    | none => throw (.mutation "A manual entry must carry a tenantId." .missingTenant)
    | some tenantId => do
      let _ ← perform (Op.upsert tenantId entry)
      let _ ← perform (Op.setEntry tenantId entry.resourceId entry none)
      return entry
  else throw (.mutation "Only manually declared entries can be written." .immutableOwner)

def removeEntry (resourceId tenantId : String) : Service Bool := do
  let existing : Option PiiRegistryEntry ← perform (Op.getEntry tenantId resourceId)
  match existing with
  | none => return false
  | some existing =>
    if existing.isManual then do
      let _ ← perform (Op.delete tenantId resourceId)
      let _ ← perform (Op.deleteEntry tenantId resourceId)
      return true
    else throw (.mutation "Only manually declared entries can be removed." .immutableOwner)

def markResource (mark : SyncMark) (resourceId tenantId candidateIso : String) :
    Service (Option PiiRegistryEntry) := do
  let existing : Option PiiRegistryEntry ← perform (Op.getEntry tenantId resourceId)
  match existing with
  | none => return none
  | some existing =>
    if existing.isManual then do
      let stored : String ← perform (Op.advance mark tenantId resourceId candidateIso)
      let updated := mark.write stored existing
      let _ ← perform (Op.setEntry tenantId resourceId updated (some mark))
      return some updated
    else throw (.mutation "Only manually declared entries can be marked synced." .immutableOwner)

def markResourceSynced (resourceId tenantId candidateIso : String) : Service (Option PiiRegistryEntry) :=
  markResource .synced resourceId tenantId candidateIso

def markResourceSyncAttempted (resourceId tenantId candidateIso : String) : Service (Option PiiRegistryEntry) :=
  markResource .attempted resourceId tenantId candidateIso

end PiiRegistryService

open PiiRegistryService

inductive Job where
  | upsertEntry (entry : PiiRegistryEntry)
  | removeEntry (resourceId tenantId : String)
  | markResourceSynced (resourceId tenantId candidateIso : String)
  | markResourceSyncAttempted (resourceId tenantId candidateIso : String)

abbrev Run := Prog Op (fun op => Except RegistryError op.Res)

def ignore {α : Type} (x : Service α) : Run Unit := x.run.bind fun _ => .done ()

def Job.body : Job → Run Unit
  | .upsertEntry entry => ignore (PiiRegistryService.upsertEntry entry)
  | .removeEntry resourceId tenantId => ignore (PiiRegistryService.removeEntry resourceId tenantId)
  | .markResourceSynced resourceId tenantId candidateIso =>
    ignore (PiiRegistryService.markResourceSynced resourceId tenantId candidateIso)
  | .markResourceSyncAttempted resourceId tenantId candidateIso =>
    ignore (PiiRegistryService.markResourceSyncAttempted resourceId tenantId candidateIso)

abbrev registry (getTime : String → Option ℤ) : Interleaving where
  State := Registry
  Op := Op
  Ret := fun op => Except RegistryError op.Res
  Choice := Outcome
  Env := Empty
  Job := Job
  exec := Op.exec getTime
  env := fun e _ => nomatch e
  body := Job.body
  forks := fun _ _ => []
  client := fun _ => true

end ChameleonVault.PiiRegistry
