import ChameleonVault.Concurrency.Sequence
import ChameleonVault.DecryptedViews.Declarations
import Mathlib.Data.List.AList

/-! Declaring and revoking decrypted views: the views in BigQuery, the declarations in the store, and
the calls that change the one and then the other. -/

namespace ChameleonVault.DecryptedViews

open Concurrency
open KeyRegistry (Date)

structure Binding where
  role : String
  members : Option (List String)

structure Table where
  viewSql : String
  bindings : Option (List Binding)

structure State where
  tables : AList (fun _ : String × String => Table)
  documents : AList (fun _ : String => DecryptedViewDeclaration)

def State.empty : State := ⟨∅, ∅⟩

inductive ViewError where
  | message (text : String)
  | external (code : ℕ)

/-- The functions of the repository that read a document. -/
inductive Reader where
  | get | create | revoke
  deriving DecidableEq

/-- The creation of a table is told the declaration that it is made for. -/
inductive Op where
  | queryFields (tenantId : String)
  | createTable (tenantId viewName dataset viewId viewSql : String)
  | getIamPolicy (dataset viewId : String)
  | setIamPolicy (dataset viewId : String) (bindings : List Binding)
  | deleteTable (dataset viewId : String)
  | getDocument (reader : Reader) (id : String)
  | setDocument (id : String) (record : DecryptedViewDeclaration)
  | updateDocument (id : String) (revokedAt : Date) (revokedBy : String)

def Op.Res : Op → Type
  | .queryFields _ => List String
  | .getIamPolicy _ _ => Option (List Binding)
  | .getDocument _ _ => Option DecryptedViewDeclaration
  | _ => Unit

/-- An unconfirmed change took effect, but its caller saw an error. -/
inductive Choice where
  | done
  | failed
  | unconfirmed
  | rows (fieldNames : List String)
  deriving DecidableEq

namespace State

def createTable (dataset viewId viewSql : String) (s : State) : Except ViewError State :=
  match s.tables.lookup (dataset, viewId) with
  | some _ => .error (.external 409)
  | none => .ok { s with tables := s.tables.insert (dataset, viewId) ⟨viewSql, none⟩ }

def setIamPolicy (dataset viewId : String) (bindings : List Binding) (s : State) : Except ViewError State :=
  match s.tables.lookup (dataset, viewId) with
  | some table => .ok { s with tables := s.tables.insert (dataset, viewId) { table with bindings := some bindings } }
  | none => .error (.external 404)

def deleteTable (dataset viewId : String) (s : State) : Except ViewError State :=
  match s.tables.lookup (dataset, viewId) with
  | some _ => .ok { s with tables := s.tables.erase (dataset, viewId) }
  | none => .error (.external 404)

def getIamPolicy (dataset viewId : String) (s : State) : Except ViewError (Option (List Binding)) :=
  match s.tables.lookup (dataset, viewId) with
  | some table => .ok table.bindings
  | none => .error (.external 404)

def setDocument (id : String) (record : DecryptedViewDeclaration) (s : State) : State :=
  { s with documents := s.documents.insert id record }

end State

def DecryptedViewDeclaration.revoked (declaration : DecryptedViewDeclaration) (revokedAt : Date) (revokedBy : String) :
    DecryptedViewDeclaration :=
  { declaration with status := .revoked, revokedAt := some revokedAt, revokedBy := some revokedBy }

def State.updateDocument (id : String) (revokedAt : Date) (revokedBy : String) (s : State) : Except ViewError State :=
  match s.documents.lookup id with
  | some document => .ok (s.setDocument id (document.revoked revokedAt revokedBy))
  | none => .error (.external 5)

def unavailable : ViewError := .external 503

def change (apply : State → Except ViewError State) (choice : Choice) (s : State) :
    Option (Except ViewError Unit × State) :=
  match choice, apply s with
  | .done, .ok s' => some (.ok (), s')
  | .done, .error e => some (.error e, s)
  | .failed, _ => some (.error unavailable, s)
  | .unconfirmed, .ok s' => some (.error unavailable, s')
  | _, _ => none

def answer {α : Type} (read : State → Except ViewError α) (choice : Choice) (s : State) :
    Option (Except ViewError α × State) :=
  match choice with
  | .done => some (read s, s)
  | .failed => some (.error unavailable, s)
  | _ => none

def Op.exec : (op : Op) → Choice → State → Option (Except ViewError op.Res × State)
  | .queryFields _, .rows fieldNames, s => some (.ok fieldNames, s)
  | .queryFields _, .failed, s => some (.error unavailable, s)
  | .queryFields _, _, _ => none
  | .createTable _ _ dataset viewId viewSql, choice, s => change (State.createTable dataset viewId viewSql) choice s
  | .getIamPolicy dataset viewId, choice, s => answer (State.getIamPolicy dataset viewId) choice s
  | .setIamPolicy dataset viewId bindings, choice, s => change (State.setIamPolicy dataset viewId bindings) choice s
  | .deleteTable dataset viewId, choice, s => change (State.deleteTable dataset viewId) choice s
  | .getDocument _ id, choice, s => answer (fun s => .ok (s.documents.lookup id)) choice s
  | .setDocument id record, choice, s => change (fun s => .ok (s.setDocument id record)) choice s
  | .updateDocument id revokedAt revokedBy, choice, s => change (State.updateDocument id revokedAt revokedBy) choice s

abbrev Service := Call Op Op.Res ViewError

def checked {α : Type} : Except String α → Service α
  | .ok a => pure a
  | .error text => throw (.message text)

def viewerRole : String := "roles/bigquery.dataViewer"

def addMember (member : String) : List Binding → List Binding
  | [] => [⟨viewerRole, some [member]⟩]
  | binding :: bindings =>
    if binding.role = viewerRole then
      let members := binding.members.getD []
      { binding with members := some (if member ∈ members then members else members ++ [member]) } :: bindings
    else binding :: addMember member bindings

namespace DecryptedViewsRepository

def get (tenantId viewName : String) : Service (Option DecryptedViewDeclaration) :=
  perform (Op.getDocument .get (docId tenantId viewName))

def create (declaration : DecryptedViewDeclaration) : Service DecryptedViewDeclaration := do
  let id := docId declaration.tenantId declaration.viewName
  let existing : Option DecryptedViewDeclaration ← perform (Op.getDocument .create id)
  if existing.any (·.status = .active) then
    throw (.message ("Decrypted view \"" ++ declaration.viewName ++ "\" already exists for tenant "
      ++ declaration.tenantId))
  else do
    let _ ← perform (Op.setDocument id declaration)
    return declaration

def revoke (tenantId viewName revokedBy : String) (now : Date) : Service (Option DecryptedViewDeclaration) := do
  let id := docId tenantId viewName
  let doc : Option DecryptedViewDeclaration ← perform (Op.getDocument .revoke id)
  match doc with
  | none => return none
  | some doc => do
    let _ ← perform (Op.updateDocument id now revokedBy)
    return some (doc.revoked now revokedBy)

end DecryptedViewsRepository

namespace DecryptedViewService

variable (service : DecryptedViewService)

def grantViewerOnView (dataset viewId consumerServiceAccount : String) : Service Unit := do
  let policy : Option (List Binding) ← perform (Op.getIamPolicy dataset viewId)
  let member := "serviceAccount:" ++ consumerServiceAccount
  perform (Op.setIamPolicy dataset viewId (addMember member (policy.getD [])))

def declareView (input : DeclareViewInput) (now : Date) : Service DecryptedViewDeclaration := do
  let _ ← checked (checkInput input)
  let available : List String ← perform (Op.queryFields input.tenantId)
  let _ ← checked (checkFields available input.declaredFields)
  let dataset := service.decryptedViewsDataset
  let _ ← perform (Op.createTable input.tenantId input.viewName dataset input.viewId (service.buildViewSql input))
  let _ ← grantViewerOnView dataset input.viewId input.consumerServiceAccount
  DecryptedViewsRepository.create (service.declaration input now)

def revokeView (tenantId viewName revokedBy : String) (now : Date) : Service (Option DecryptedViewDeclaration) := do
  let existing : Option DecryptedViewDeclaration ← DecryptedViewsRepository.get tenantId viewName
  match existing with
  | none => return none
  | some existing =>
    if existing.status = .active then do
      let _ ← tryCatch (perform (Op.deleteTable existing.bigqueryDataset existing.bigqueryViewName)) fun error =>
        match error with
        | .external 404 => pure ()
        | error => throw error
      DecryptedViewsRepository.revoke tenantId viewName revokedBy now
    else return none

end DecryptedViewService

inductive ViewCall where
  | declareView (input : DeclareViewInput) (now : Date)
  | revokeView (tenantId viewName revokedBy : String) (now : Date)

def ignore {α : Type} (x : Service α) : Prog Op (fun op => Except ViewError op.Res) Unit :=
  x.run.bind fun _ => .done ()

def ViewCall.body (service : DecryptedViewService) : ViewCall → Prog Op (fun op => Except ViewError op.Res) Unit
  | .declareView input now => ignore (service.declareView input now)
  | .revokeView tenantId viewName revokedBy now =>
    ignore (DecryptedViewService.revokeView tenantId viewName revokedBy now)

end ChameleonVault.DecryptedViews
