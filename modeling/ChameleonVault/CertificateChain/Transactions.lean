import ChameleonVault.Deletion.Issuance

/-! Appending to a tenant's certificate chain, as the transaction runs: the head is read from the
document that the tenant's id names, the certificate is signed over it, and the commit goes through
only if the head is still the one read. -/

namespace ChameleonVault.CertificateChain

open Collections Concurrency Call Deletion
open KeyRegistry (Date)

deriving instance DecidableEq for CertificateChainState

inductive Op where
  | getHead (document : DocumentPath)
  | signClaims (claims : Claims) (previousHash : Option String) (sequence : ℕ)
  | commit (document : DocumentPath) (tenantId id : String) (current : Option CertificateChainState) (certificate : Certificate)
  | recordTsaTimestamp (hash : String) (info : TsaTimestampInfo)
  | recordRekorEntry (hash : String) (info : RekorLogEntryInfo)

def Op.Res : Op → Type
  | .getHead _ => Option CertificateChainState
  | .signClaims _ _ _ => String × String
  | .commit _ _ _ _ _ => Bool
  | _ => Unit

/-- An unconfirmed operation took effect; the caller of a commit may then be told to retry it. -/
inductive Outcome where
  | done
  | signed (keyVersion signature : String)
  | aborted
  | failed
  | unconfirmed (retried : Bool)
  deriving DecidableEq

def previousHash (current : Option CertificateChainState) : Option String := current.bind (·.lastHash)
def sequence (current : Option CertificateChainState) : ℕ := ((current.map (·.sequence)).getD 0) + 1

def commitAppend (d : Deployment) (document : DocumentPath) (tenantId id : String) (current : Option CertificateChainState)
    (certificate : Certificate) (w : World) : World :=
  let hash := d.sha256 certificate
  { w with
    certificateChain := w.certificateChain.insert document ⟨sequence current, some hash, some id, w.clock⟩
    chainEntries := w.chainEntries.insert hash
      { tenantId := tenantId, sequence := sequence current, previousHash := previousHash current,
        deletionRequestId := id, createdAt := w.clock } }

def runCommit (d : Deployment) (document : DocumentPath) (tenantId id : String) (current : Option CertificateChainState)
    (certificate : Certificate) : Outcome → World → Option (Except String Bool × World)
  | .done, w =>
    if w.certificateChain.lookup document = current then
      some (.ok true, commitAppend d document tenantId id current certificate w)
    else some (.ok false, w)
  | .aborted, w => some (.ok false, w)
  | .failed, w => some (.error unavailable, w)
  | .unconfirmed retried, w =>
    if w.certificateChain.lookup document = current then
      some (if retried then .ok false else .error unavailable, commitAppend d document tenantId id current certificate w)
    else none
  | .signed _ _, _ => none

def runUpdate (update : World → Except String (Unit × World)) : Outcome → World →
    Option (Except String Unit × World)
  | .done, w => match update w with
    | .ok (_, w') => some (.ok (), w')
    | .error e => some (.error e, w)
  | .failed, w => some (.error unavailable, w)
  | .unconfirmed _, w => match update w with
    | .ok (_, w') => some (.error unavailable, w')
    | .error _ => none
  | _, _ => none

def Op.exec (d : Deployment) : (op : Op) → Outcome → World → Option (Except String op.Res × World)
  | .getHead document, .done, w => some (.ok (w.certificateChain.lookup document), w)
  | .getHead _, .failed, w => some (.error unavailable, w)
  | .signClaims _ _ _, .signed keyVersion signature, w => some (.ok (keyVersion, signature), w)
  | .signClaims _ _ _, .failed, w => some (.error unavailable, w)
  | .commit document tenantId id current certificate, outcome, w =>
    runCommit d document tenantId id current certificate outcome w
  | .recordTsaTimestamp hash info, outcome, w =>
    runUpdate (World.updateEntry hash fun entry => { entry with tsaTimestamp := some info }) outcome w
  | .recordRekorEntry hash info, outcome, w =>
    runUpdate (World.updateEntry hash fun entry => { entry with rekorEntry := some info }) outcome w
  | _, _, _ => none

abbrev Service := Call Op Op.Res String

def maxAttempts : ℕ := 5

/-- The whole callback runs again when the commit is refused. -/
def attempt (d : Deployment) (document : DocumentPath) (tenantId id : String) (claims : Claims) :
    ℕ → Service ChainedCertificate
  | 0 => throw "ABORTED"
  | left + 1 => do
    let current ← perform (Op.getHead document)
    let (keyVersion, signature) ← perform (Op.signClaims claims (previousHash current) (sequence current))
    let certificate : Certificate := ⟨claims, previousHash current, sequence current, keyVersion, signature⟩
    let committed : Bool ← perform (Op.commit document tenantId id current certificate)
    if committed then return ⟨certificate, d.sha256 certificate, previousHash current, sequence current⟩
    else attempt d document tenantId id claims left

def appendToChain (d : Deployment) (tenantId id : String) (claims : Claims) : Service ChainedCertificate :=
  match d.document tenantId with
  | some document => attempt d document tenantId id claims maxAttempts
  | none => throw "Value for argument \"documentPath\" must point to a document."

/-- The claims of an append are made for the tenant whose chain they enter. -/
inductive Job where
  | append (tenantId id : String) (claims : Claims) (ofTenant : claims.tenantId = tenantId)
  | recordTsaTimestamp (hash : String) (info : TsaTimestampInfo)
  | recordRekorEntry (hash : String) (info : RekorLogEntryInfo)

def Job.body (d : Deployment) : Job → Prog Op (fun op => Except String op.Res) Unit
  | .append tenantId id claims _ => (appendToChain d tenantId id claims).run.bind fun _ => .done ()
  | .recordTsaTimestamp hash info => (perform (Op.recordTsaTimestamp hash info) : Service Unit).run.bind fun _ => .done ()
  | .recordRekorEntry hash info => (perform (Op.recordRekorEntry hash info) : Service Unit).run.bind fun _ => .done ()

abbrev ledger (d : Deployment) : Interleaving where
  State := World
  Op := Op
  Ret := fun op => Except String op.Res
  Choice := Outcome
  Env := ℕ
  Job := Job
  exec := Op.exec d
  env := fun ms w => some { w with clock := w.clock + ms }
  body := Job.body d
  forks := fun _ _ => []
  client := fun _ => true

end ChameleonVault.CertificateChain
