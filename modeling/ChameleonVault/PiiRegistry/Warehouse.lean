import ChameleonVault.Concurrency.Sequence
import ChameleonVault.PiiRegistry.Executors
import ChameleonVault.PiiRegistry.Service

/-! The tables and views beside the declared ones, and what keeping a declaration's copies does to
them. BigQuery answers every step here, if only with a conflict. -/

namespace ChameleonVault.PiiRegistry

open Concurrency
open Deletion (TableRef)

section Residents

structure Owner where
  tenantId : String
  resourceId : String
  deriving DecidableEq

inductive Purpose where
  | shadowCopy | encryptedCopy
  deriving DecidableEq

structure Maker where
  owner : Owner
  purpose : Purpose
  deriving DecidableEq

inductive Relation where
  | table
  | view (query : String)
  deriving DecidableEq

/-- What the service did not create has no maker. -/
structure Resident where
  relation : Relation
  maker : Option Maker := none
  deriving DecidableEq

abbrev Warehouse := AList (fun _ : TableRef => Resident)

structure World where
  registry : Registry
  warehouse : Warehouse

def PiiRegistryEntry.owner (entry : PiiRegistryEntry) : Owner := ⟨entry.tenantId.getD "", entry.resourceId⟩

def beside (table : TableRef) (suffix : String) : TableRef := { table with tableId := table.tableId ++ suffix }

end Residents

section Operations

inductive RouteError where
  | registry (error : RegistryError)
  | message (text : String)
  | external (code : ℕ)
  deriving DecidableEq

/-- A table or a view is told the declaration that it is created for. -/
inductive WarehouseOp where
  | deleteTable (path : TableRef)
  | createView (maker : Maker) (path : TableRef) (query : String)
  | createTableIfNotExists (maker : Maker) (path : TableRef) (text : String)
  | alterTable (path : TableRef) (text : String)
  | replaceView (maker : Maker) (path : TableRef) (query : String)

inductive RouteOp where
  | registry (op : Op)
  | find (resourceId tenantId : String)
  | getTableType (resourceId : String)
  | getColumns (resourceId : String)
  | warehouse (op : WarehouseOp)

def RouteOp.Res : RouteOp → Type
  | .registry op => op.Res
  | .find _ _ => Option PiiRegistryEntry
  | .getTableType _ => Option String
  | .getColumns _ => List String
  | .warehouse _ => Unit

inductive Answer where
  | done
  | failed
  | store (outcome : Outcome)
  | tableType (kind : Option String)
  | columns (names : List String)
  deriving DecidableEq

def WarehouseOp.apply (w : Warehouse) : WarehouseOp → Except RouteError Warehouse
  | .deleteTable path =>
    match w.lookup path with
    | some _ => .ok (w.erase path)
    | none => .error (.external 404)
  | .createView maker path query =>
    match w.lookup path with
    | some _ => .error (.external 409)
    | none => .ok (w.insert path ⟨.view query, some maker⟩)
  | .createTableIfNotExists maker path _ =>
    match w.lookup path with
    | some _ => .ok w
    | none => .ok (w.insert path ⟨.table, some maker⟩)
  | .alterTable path _ =>
    match w.lookup path with
    | some ⟨.table, _⟩ => .ok w
    | some ⟨.view _, _⟩ => .error (.external 400)
    | none => .error (.external 404)
  | .replaceView maker path query =>
    match w.lookup path with
    | some ⟨.table, _⟩ => .error (.external 400)
    | _ => .ok (w.insert path ⟨.view query, some maker⟩)

def RouteOp.exec (getTime : String → Option ℤ) : (op : RouteOp) → Answer → World →
    Option (Except RouteError op.Res × World)
  | .registry op, .store outcome, s =>
    (op.exec getTime outcome s.registry).map fun r => (r.1.mapError .registry, { s with registry := r.2 })
  | .find resourceId tenantId, .done, s => some (.ok (getEntry resourceId (some tenantId) s.registry), s)
  | .getTableType _, .tableType kind, s => some (.ok kind, s)
  | .getTableType _, .failed, s => some (.error (.external 503), s)
  | .getColumns _, .columns names, s => some (.ok names, s)
  | .getColumns _, .failed, s => some (.error (.external 503), s)
  | .warehouse op, .done, s =>
    match op.apply s.warehouse with
    | .ok w => some (.ok (), { s with warehouse := w })
    | .error e => some (.error e, s)
  | _, _, _ => none

abbrev Route := Call RouteOp RouteOp.Res RouteError

def change (op : WarehouseOp) : Route Unit := perform (RouteOp.warehouse op)

def toRegistry {α : Type} : Except RouteError α → Except RegistryError α
  | .ok a => .ok a
  | .error (.registry e) => .error e
  | .error _ => .error unavailable

/-- A call of the registry service as part of a route. -/
def call {α : Type} (x : Service α) : Route α :=
  ExceptT.mk ((x.run.rename .registry fun _ => toRegistry).bind fun r => .done (r.mapError .registry))

end Operations

section Copies

def shadowPath (table : TableRef) : TableRef := beside table "_deidentified"
def encryptedCopyRawPath (table : TableRef) : TableRef := beside table "_encrypted_raw"
def encryptedCopyViewPath (table : TableRef) : TableRef := beside table "_encrypted"

def dropShadowCopy (resource : PiiRegistryEntry) : Route Unit :=
  match dropShadowCopyIfExists resource with
  | .error text => throw (.message text)
  | .ok none => pure ()
  | .ok (some table) => tryCatch (change (.deleteTable (shadowPath table))) fun error =>
    match error with
    | .external 404 => pure ()
    | error => throw error

def maintainShadowCopy (service : SourceRedactionService) (resource : PiiRegistryEntry) : Route Unit :=
  match ensureShadowCopy service resource with
  | .error text => throw (.message text)
  | .ok none => dropShadowCopy resource
  | .ok (some view) => do
    let _ ← dropShadowCopy resource
    change (.createView ⟨resource.owner, .shadowCopy⟩ (shadowPath view.source) view.viewSql)

def maintainEncryptedCopy (resource : PiiRegistryEntry) : Route Unit :=
  match ensureEncryptedCopyTable resource with
  | .error text => throw (.message text)
  | .ok none => pure ()
  | .ok (some copy) => do
    let maker : Maker := ⟨resource.owner, .encryptedCopy⟩
    let _ ← change (.createTableIfNotExists maker (encryptedCopyRawPath copy.source) copy.createTableSql)
    let _ ← change (.alterTable (encryptedCopyRawPath copy.source) copy.alterTableSql)
    let path := encryptedCopyViewPath copy.source
    tryCatch (change (.createView maker path copy.dedupViewSql)) fun error =>
      match error with
      | .external 409 => change (.replaceView maker path copy.dedupViewSql)
      | error => throw error

end Copies

section Routes

structure Reply where
  status : ℕ
  shadowCopyError : Option RouteError := none
  encryptedCopyError : Option RouteError := none

def attempt (x : Route Unit) : Route (Option RouteError) :=
  tryCatch (do
    let _ ← x
    return none) fun error => return some error

/-- A check of the warehouse that cannot be made does not stand in the way. -/
def refusedAsView (entry : PiiRegistryEntry) : Route Bool :=
  if entry.sourceRedactionStrategy = some .redactInPlace ∧ entry.system = .bigquery then do
    let tableType : Option String ←
      tryCatch (perform (RouteOp.getTableType entry.resourceId)) fun _ => return (none : Option String)
    return decide (tableType = some "VIEW" ∨ tableType = some "MATERIALIZED VIEW")
  else return false

def refusedForColumns (entry : PiiRegistryEntry) : Route Bool :=
  if Deletion.resolveSourceRedactionStrategies entry.resource ≠ [] ∧ entry.system = .bigquery then do
    let columns : List String ← tryCatch (perform (RouteOp.getColumns entry.resourceId)) fun _ => return ([] : List String)
    let referenced := entry.userIdColumn.toList ++ entry.tenantIdColumn.toList ++ entry.piiFields.map PiiFieldPolicy.name
    return columns ≠ [] && referenced.any fun name => decide (name ∉ columns)
  else return false

def failure : RouteError → Reply
  | .registry (.mutation _ _) => ⟨409, none, none⟩
  | _ => ⟨500, none, none⟩

def maintainCopies (service : SourceRedactionService) (saved : PiiRegistryEntry) (status : ℕ) : Route Reply := do
  let shadowCopyError ← attempt (maintainShadowCopy service saved)
  let encryptedCopyError ← attempt (maintainEncryptedCopy saved)
  return ⟨status, shadowCopyError, encryptedCopyError⟩

def persist (service : SourceRedactionService) (entry : PiiRegistryEntry) (status : ℕ) : Route Reply :=
  tryCatch (do
    let saved ← call (PiiRegistryService.upsertEntry entry)
    maintainCopies service saved status) fun error => return failure error

def submit (service : SourceRedactionService) (entry : PiiRegistryEntry) (status : ℕ) : Route Reply := do
  let isView ← refusedAsView entry
  if isView then return ⟨400, none, none⟩
  else do
    let lacksColumns ← refusedForColumns entry
    if lacksColumns then return ⟨400, none, none⟩ else persist service entry status

def existingEntry (resourceId : Option String) (tenantId : String) : Route (Option PiiRegistryEntry) :=
  match KeyRegistry.truthy resourceId with
  | some resourceId => perform (RouteOp.find resourceId tenantId)
  | none => pure none

def upsert (service : SourceRedactionService) (header : Option String) (body : PiiRegistryDeclarationInput)
    (resourceIdFromPath : Option String) (nowIso : String) (actorEmail : Option String) : Route Reply := do
  let tenantId := tenantOf header
  let input := match KeyRegistry.truthy resourceIdFromPath with
    | some resourceId => { body with resourceId := some resourceId }
    | none => body
  let existing ← existingEntry input.resourceId tenantId
  let edited := (KeyRegistry.truthy resourceIdFromPath).isSome
  if edited && existing.any (!PiiRegistryEntry.isManual ·) then return ⟨409, none, none⟩
  else match buildManualEntry input tenantId nowIso existing actorEmail with
    | .error _ => return ⟨400, none, none⟩
    | .ok entry => submit service entry (if edited || existing.isSome then 200 else 201)

def remove (header : Option String) (resourceId : String) : Route Reply := do
  let tenantId := tenantOf header
  let existingBeforeRemoval : Option PiiRegistryEntry ← perform (RouteOp.find resourceId tenantId)
  tryCatch (do
    let removed ← call (PiiRegistryService.removeEntry resourceId tenantId)
    if removed then
      match existingBeforeRemoval with
      | some existing => do
        let _ ← attempt (dropShadowCopy existing)
        return ⟨200, none, none⟩
      | none => return ⟨200, none, none⟩
    else return ⟨404, none, none⟩) fun error => return failure error

inductive RouteCall where
  | upsert (header : Option String) (body : PiiRegistryDeclarationInput) (resourceIdFromPath : Option String)
      (nowIso : String) (actorEmail : Option String)
  | remove (header : Option String) (resourceId : String)

def RouteCall.tenantId : RouteCall → String
  | .upsert header _ _ _ _ => tenantOf header
  | .remove header _ => tenantOf header

def RouteCall.reply (service : SourceRedactionService) : RouteCall → Route Reply
  | .upsert header body resourceIdFromPath nowIso actorEmail =>
    PiiRegistry.upsert service header body resourceIdFromPath nowIso actorEmail
  | .remove header resourceId => PiiRegistry.remove header resourceId

def RouteCall.body (service : SourceRedactionService) (j : RouteCall) :
    Prog RouteOp (fun op => Except RouteError op.Res) Unit :=
  (j.reply service).run.bind fun _ => .done ()

end Routes

end ChameleonVault.PiiRegistry
