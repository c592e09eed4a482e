import ChameleonVault.Concurrency.Invariants
import ChameleonVault.Encoding.IsoDate
import ChameleonVault.Evidence.Verification

/-! Certificates that are timestamped, published to a transparency log and stored, while others
submit to the same logs. A log only ever grows. -/

namespace ChameleonVault.Evidence

open Concurrency Interleaving Discipline Call Encoding
open Encoding.Json (ofNat)
open Encoding.IsoDate (toISOString datePath)
open KeyRegistry (truthy)

section Logs

/-- An entry of a log. Its body is the text of a JSON value, however that is laid out. -/
structure LogEntry where
  uuid : String
  logIndex : ℕ
  body : String
  more : List (String × Json)

def LogEntry.recorded (entry : LogEntry) : Option (String × String) := (Json.parse entry.body).bind recordedHash

def LogEntry.toJson (entry : LogEntry) : Json :=
  .object (("logIndex", ofNat entry.logIndex) :: ("body", .string (base64 (Utf8.encode entry.body.toList))) ::
    entry.more.filter fun f => f.1 ≠ "logIndex" ∧ f.1 ≠ "body")

structure World where
  clock : ℕ
  logs : String → List LogEntry
  bucket : AList (fun _ : String => List UInt8)

namespace World

def enter (url : String) (entry : LogEntry) (w : World) : World :=
  { w with logs := fun url' => if url' = url then entry :: w.logs url else w.logs url' }

/-- A log gives a new entry a uuid of its own and keeps the hash of the proposal. -/
def accepts (url : String) (proposal : Json) (entry : LogEntry) (w : World) : Bool :=
  entry.uuid ≠ "" && (w.logs url).all (fun other => other.uuid ≠ entry.uuid) && (recordedHash proposal).isSome &&
    entry.recorded = recordedHash proposal

def save (path : String) (bytes : List UInt8) (w : World) : World := { w with bucket := w.bucket.insert path bytes }

end World

/-- What a log may answer to the lookup of an entry. -/
def Answers (w : World) (url entryUuid : String) : Response → Prop
  | .failed _ => True
  | .answered status data => status = 200 →
      ∃ key, ∃ entry ∈ w.logs url, entry.uuid = entryUuid ∧ data = .object [(key, entry.toJson)]

end Logs

section Operations

inductive Op where
  | dateNow
  | requestTimestamp (hash : String)
  | recordTsaTimestamp (hash : String) (info : TsaTimestampInfo)
  | getSigningKeyVersionPath
  | asymmetricSign (payload keyVersionPath : String)
  | getPublicKey (keyVersionPath : String)
  | post (url : String) (proposal : Json)
  | recordRekorEntry (hash : String) (info : RekorLogEntryInfo)
  | save (path : String) (bytes : List UInt8)

def Op.Res : Op → Type
  | .dateNow => ℕ
  | .requestTimestamp _ => TsaTimestampInfo
  | .getSigningKeyVersionPath => String
  | .asymmetricSign _ _ => String
  | .getPublicKey _ => String
  | .post _ _ => ℕ × Json
  | _ => Unit

/-- An entry or a file that is lost was made, but its maker saw an error. -/
inductive Answer where
  | done
  | text (value : String)
  | stamped (info : TsaTimestampInfo)
  | entered (entry : LogEntry)
  | lostEntry (entry : LogEntry) (message : String)
  | refused (status : ℕ) (data : Json)
  | lostFile (message : String)
  | failed (message : String)

def Op.exec : (op : Op) → Answer → World → Option (Except String op.Res × World)
  | .dateNow, .done, w => some (.ok w.clock, w)
  | .requestTimestamp _, .stamped info, w => some (.ok info, w)
  | .getSigningKeyVersionPath, .text value, w => some (.ok value, w)
  | .asymmetricSign _ _, .text value, w => some (.ok value, w)
  | .getPublicKey _, .text value, w => some (.ok value, w)
  | .post url proposal, .entered entry, w =>
    if w.accepts url proposal entry then some (.ok (201, .object [(entry.uuid, entry.toJson)]), w.enter url entry) else none
  | .post url proposal, .lostEntry entry message, w =>
    if w.accepts url proposal entry then some (.error message, w.enter url entry) else none
  | .post _ _, .refused status data, w => if status = 201 then none else some (.ok (status, data), w)
  | .recordTsaTimestamp _ _, .done, w => some (.ok (), w)
  | .recordRekorEntry _ _, .done, w => some (.ok (), w)
  | .save path bytes, .done, w => some (.ok (), w.save path bytes)
  | .save path bytes, .lostFile message, w => some (.error message, w.save path bytes)
  | .dateNow, _, _ => none
  | .requestTimestamp _, _, _ => none
  | _, .failed message, w => some (.error message, w)
  | _, _, _ => none

abbrev Service := Call Op Op.Res String

end Operations

section Client

def failedEntry (rekorUrl attemptedAt error : String) : RekorLogEntryInfo :=
  { status := .failed, rekorUrl, attemptedAt, error := some error }

/-- The entry that the answer to a submission tells of: its first key, and what stands there. -/
def publishedEntry (rekorUrl attemptedAt : String) (data : Json) (names : List String) : RekorLogEntryInfo where
  status := .published
  entryUuid := names.head?
  logIndex := ((truthy names.head?).bind data.member?).bind (·.member? "logIndex")
  rekorUrl := rekorUrl
  attemptedAt := attemptedAt

def submit (sha256 : Sha256) (rekorUrl attemptedAt certificateHash : String) (previousCertificateHash : Option String) :
    Service RekorLogEntryInfo := do
  let text := payload certificateHash previousCertificateHash
  let keyVersionPath ← perform Op.getSigningKeyVersionPath
  let signature ← perform (Op.asymmetricSign text keyVersionPath)
  let publicKeyPem ← perform (Op.getPublicKey keyVersionPath)
  let answer ← perform (Op.post rekorUrl (proposal signature publicKeyPem (sha256.hex text)))
  if answer.1 ≠ 201 then return failedEntry rekorUrl attemptedAt ("HTTP " ++ toString answer.1)
  else match answer.2.keys with
    | some names => return publishedEntry rekorUrl attemptedAt answer.2 names
    | none => throw "Cannot convert undefined or null to object"

def publishCertificateHash (sha256 : Sha256) (rekorUrl certificateHash : String)
    (previousCertificateHash : Option String) : Service RekorLogEntryInfo := do
  let now ← perform Op.dateNow
  tryCatch (submit sha256 rekorUrl (toISOString now) certificateHash previousCertificateHash)
    fun error => return failedEntry rekorUrl (toISOString now) error

end Client

section Issuance

structure Deployment where
  sha256 : Sha256
  bucketName : String
  tsa : Bool
  rekor : Option String

/-- A certificate that has entered the chain of its tenant. -/
structure Chained where
  userId : String
  deletionRequestId : String
  tenantId : String
  certificate : String
  certificateHash : String
  previousHash : Option String
  sequence : ℕ

def certPath (i : Chained) (now : ℕ) : String :=
  "certificates/" ++ i.tenantId ++ "/" ++ datePath now ++ "/certificate-" ++ i.deletionRequestId ++ ".json"

def hashPath (i : Chained) (now : ℕ) : String :=
  "certificates/" ++ i.tenantId ++ "/" ++ datePath now ++ "/audit-hash-" ++ i.deletionRequestId ++ ".txt"

def certPayload (i : Chained) (now : ℕ) (tsaTimestamp : Option TsaTimestampInfo) (rekorEntry : Option RekorLogEntryInfo) :
    CertificateWrapper where
  certificate := i.certificate
  userId := i.userId
  deletionRequestId := i.deletionRequestId
  timestamp := toISOString now
  hash := i.certificateHash
  previousCertificateHash := i.previousHash
  chainSequence := some i.sequence
  tsaTimestamp := tsaTimestamp
  rekorEntry := rekorEntry

def timestamp (d : Deployment) (hash : String) : Service (Option TsaTimestampInfo) :=
  if d.tsa then do
    let info ← perform (Op.requestTimestamp hash)
    quietly (perform (Op.recordTsaTimestamp hash info))
    return some info
  else return none

def publish (d : Deployment) (hash : String) (previousHash : Option String) : Service (Option RekorLogEntryInfo) :=
  match d.rekor with
  | some rekorUrl => do
    let info ← publishCertificateHash d.sha256 rekorUrl hash previousHash
    quietly (perform (Op.recordRekorEntry hash info))
    return some info
  | none => return none

def uploadCertificate (d : Deployment) (i : Chained) (tsaTimestamp : Option TsaTimestampInfo)
    (rekorEntry : Option RekorLogEntryInfo) : Service String := do
  let now ← perform Op.dateNow
  perform (Op.save (certPath i now) (certPayload i now tsaTimestamp rekorEntry).bytes)
  perform (Op.save (hashPath i now) (Utf8.encode i.certificateHash.toList))
  return "gs://" ++ d.bucketName ++ "/" ++ certPath i now

def store (d : Deployment) (i : Chained) : Service String := do
  let tsaTimestamp ← timestamp d i.certificateHash
  let rekorEntry ← publish d i.certificateHash i.previousHash
  uploadCertificate d i tsaTimestamp rekorEntry

inductive Outside where
  | pass (ms : ℕ)
  | submit (url : String) (proposal : Json) (entry : LogEntry)

def Outside.run : Outside → World → Option World
  | .pass ms, w => some { w with clock := w.clock + ms }
  | .submit url proposal entry, w => if w.accepts url proposal entry then some (w.enter url entry) else none

abbrev publications (d : Deployment) : Interleaving where
  State := World
  Op := Op
  Ret := fun op => Except String op.Res
  Choice := Answer
  Env := Outside
  Job := Chained
  exec := Op.exec
  env := Outside.run
  body := fun i => (store d i).run.bind fun _ => .done ()
  forks := fun _ _ => []
  client := fun _ => true

end Issuance

end ChameleonVault.Evidence
