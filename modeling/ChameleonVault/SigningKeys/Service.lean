import ChameleonVault.Concurrency.Interleaving
import ChameleonVault.SigningKeys.Versions
import Mathlib.Logic.Function.Basic

/-! The callers of the signing key in one process. What they keep of it, they read and write
without waiting; only the calls of KMS take time, and other callers may run meanwhile. -/

namespace ChameleonVault.SigningKeys

open Concurrency

section Keys

inductive VersionState where
  | pendingGeneration | enabled | generationFailed
  deriving DecidableEq

structure CryptoKeyVersion where
  number : ℕ
  state : VersionState
  deriving DecidableEq

def enabledNames (keyPath : String) (versions : List CryptoKeyVersion) : List String :=
  (versions.filter fun v => v.state = .enabled).map fun v => versionName keyPath v.number

/-- The exported parameters stand as the PEM that they are read from. -/
structure Jwk where
  pem : String
  kid : String
  use : String := "sig"
  alg : String := "PS256"
  deriving DecidableEq

structure JwkFor (keyVersionPath : String) where
  jwk : Jwk
  kid : jwk.kid = keyVersionPath

structure KeySet (versions : List String) where
  keys : List Jwk
  kids : keys.map Jwk.kid = versions

structure UnsignedToken where
  alg : String := "PS256"
  typ : String := "JWT"
  kid : String
  claims : String
  deriving DecidableEq

structure Certificate where
  unsignedToken : UnsignedToken
  signature : String
  deriving DecidableEq

def Certificate.kid (certificate : Certificate) : String := certificate.unsignedToken.kid

end Keys

section Operations

structure Cached (α : Type) where
  value : α
  expiresAt : ℕ

def live {α : Type} (now : ℕ) : Option (Cached α) → Option α
  | some cached => if now < cached.expiresAt then some cached.value else none
  | none => none

inductive Holder where
  | service | signer
  deriving DecidableEq

structure Caches where
  currentVersion : Holder → Option (Cached String) := fun _ => none
  enabledVersions : Option (Cached (List String)) := none
  jwks : (keyVersionPath : String) → Option (JwkFor keyVersionPath) := fun _ => none
  /-- A fingerprint stands as the PEM that it is the hash of. -/
  fingerprints : String → Option String := fun _ => none

structure State where
  clock : ℕ
  versions : List CryptoKeyVersion
  caches : Caches

def currentVersionTtlMs : ℕ := 5 * 60 * 1000
def enabledVersionsTtlMs : ℕ := 10 * 60 * 1000

inductive MemoryOp where
  | currentVersion (holder : Holder)
  | setCurrentVersion (holder : Holder) (value : String)
  | enabledVersions
  | setEnabledVersions (value : List String)
  | jwk (keyVersionPath : String)
  | setJwk (keyVersionPath : String) (jwk : JwkFor keyVersionPath)
  | fingerprint (keyVersionPath : String)
  | setFingerprint (keyVersionPath pem : String)
  | now
  /-- All three caches are dropped at once, by the rotation to the new version. -/
  | invalidate (newVersion : String)

def MemoryOp.Res : MemoryOp → Type
  | .currentVersion _ => Option String
  | .enabledVersions => Option (List String)
  | .jwk keyVersionPath => Option (JwkFor keyVersionPath)
  | .fingerprint _ => Option String
  | .now => ℕ
  | _ => Unit

def MemoryOp.run (now : ℕ) : (op : MemoryOp) → Caches → op.Res × Caches
  | .currentVersion holder, c => (live now (c.currentVersion holder), c)
  | .setCurrentVersion holder value, c =>
    ((), { c with currentVersion := Function.update c.currentVersion holder (some ⟨value, now + currentVersionTtlMs⟩) })
  | .enabledVersions, c => (live now c.enabledVersions, c)
  | .setEnabledVersions value, c => ((), { c with enabledVersions := some ⟨value, now + enabledVersionsTtlMs⟩ })
  | .jwk keyVersionPath, c => (c.jwks keyVersionPath, c)
  | .setJwk keyVersionPath key, c => ((), { c with jwks := Function.update c.jwks keyVersionPath (some key) })
  | .fingerprint keyVersionPath, c => (c.fingerprints keyVersionPath, c)
  | .setFingerprint keyVersionPath pem, c =>
    ((), { c with fingerprints := Function.update c.fingerprints keyVersionPath (some pem) })
  | .now, c => (now, c)
  | .invalidate _, c => ((), { c with currentVersion := fun _ => none, enabledVersions := none })

/-- A listing goes page by page: it has what was enabled when it began, and may or may not
have what became enabled meanwhile. -/
inductive KmsOp where
  | beginList
  | endList (seen : List String)
  | createCryptoKeyVersion
  | getCryptoKeyVersion (name : String)
  | getPublicKey (keyVersionPath : String)
  | asymmetricSign (payload : UnsignedToken) (keyVersionPath : String)

def KmsOp.Res : KmsOp → Type
  | .beginList => List String
  | .endList _ => List String
  | .createCryptoKeyVersion => String
  | .getCryptoKeyVersion _ => VersionState
  | .getPublicKey _ => String
  | .asymmetricSign _ _ => String

/-- A version may have been created although the caller sees an error. -/
inductive Outcome where
  | done
  | listed (names : List String)
  | created (number : ℕ)
  | text (value : String)
  | fail (created : Option ℕ)

def unavailable : String := "UNAVAILABLE"

def create (number : ℕ) (versions : List CryptoKeyVersion) : Option (List CryptoKeyVersion) :=
  if ∀ v ∈ versions, v.number < number then some (versions ++ [⟨number, .pendingGeneration⟩]) else none

def KmsOp.exec (keyPath : String) :
    (op : KmsOp) → Outcome → List CryptoKeyVersion → Option (Except String op.Res × List CryptoKeyVersion)
  | .beginList, .done, versions => some (.ok (enabledNames keyPath versions), versions)
  | .endList seen, .listed names, versions =>
    if seen ⊆ names ∧ names ⊆ enabledNames keyPath versions then some (.ok names, versions) else none
  | .createCryptoKeyVersion, .created number, versions =>
    (create number versions).map fun versions => (.ok (versionName keyPath number), versions)
  | .createCryptoKeyVersion, .fail (some number), versions =>
    (create number versions).map fun versions => (.error unavailable, versions)
  | .getCryptoKeyVersion name, .done, versions =>
    match versions.find? fun v => versionName keyPath v.number = name with
    | some v => some (.ok v.state, versions)
    | none => some (.error "NOT_FOUND", versions)
  | .getPublicKey _, .text pem, versions => some (.ok pem, versions)
  | .asymmetricSign _ _, .text signature, versions => some (.ok signature, versions)
  | _, .fail none, versions => some (.error unavailable, versions)
  | _, _, _ => none

inductive Answer where
  | signed (certificate : Certificate)
  | published (keys : List Jwk)
  | rotated (newVersion previousVersion : String)

inductive SigningOp where
  | memory (op : MemoryOp)
  | kms (op : KmsOp)
  | wake (time : ℕ)
  | answer (answer : Answer)

def SigningOp.Res : SigningOp → Type
  | .memory op => op.Res
  | .kms op => op.Res
  | .wake _ => Unit
  | .answer _ => Unit

def SigningOp.exec (keyPath : String) :
    (op : SigningOp) → Outcome → State → Option (Except String op.Res × State)
  | .memory op, .done, s => some (.ok (op.run s.clock s.caches).1, { s with caches := (op.run s.clock s.caches).2 })
  | .kms op, choice, s =>
    (op.exec keyPath choice s.versions).map fun (reply, versions) => (reply, { s with versions })
  | .wake time, .done, s => if time ≤ s.clock then some (.ok (), s) else none
  | .answer _, .done, s => some (.ok (), s)
  | _, _, _ => none

abbrev SigningCall := Call SigningOp SigningOp.Res String

def memory (op : MemoryOp) : SigningCall op.Res := perform (SigningOp.memory op)
def kms (op : KmsOp) : SigningCall op.Res := perform (SigningOp.kms op)
def wake (time : ℕ) : SigningCall Unit := perform (SigningOp.wake time)
def answer (a : Answer) : SigningCall Unit := perform (SigningOp.answer a)

end Operations

section Programs

variable (keyPath : String)

namespace CloudKMSClient

def listEnabledVersions : SigningCall (List String) := do
  let seen ← kms .beginList
  kms (.endList seen)

def getNewestEnabledVersion : SigningCall String := do
  let versions ← listEnabledVersions
  match newest versions with
  | some version => return version
  | none => throw ("CryptoKey " ++ keyPath ++ " has no ENABLED versions")

def createKeyVersion : SigningCall String := kms .createCryptoKeyVersion

def timeoutMs : ℕ := 120000
def pollMs : ℕ := 3000

/-- A run is followed for a bounded number of polls, whatever the bound. -/
def poll (versionName : String) (deadline : ℕ) : ℕ → SigningCall Unit
  | 0 => throw "not followed any further"
  | polls + 1 => do
    let state : VersionState ← kms (.getCryptoKeyVersion versionName)
    if state = .enabled then return ()
    else if state = .generationFailed then throw ("Key version " ++ versionName ++ " failed to generate")
    else
      let now : ℕ ← memory .now
      if deadline ≤ now then
        throw ("Timed out waiting for key version " ++ versionName ++ " to become ENABLED")
      else
        wake (now + pollMs)
        poll versionName deadline polls

def waitForVersionEnabled (versionName : String) (polls : ℕ) : SigningCall Unit := do
  let now : ℕ ← memory .now
  poll versionName (now + timeoutMs) polls

end CloudKMSClient

def currentSigningKeyVersion (holder : Holder) : SigningCall String := do
  let cached ← memory (.currentVersion holder)
  match cached with
  | some value => return value
  | none =>
    let value ← CloudKMSClient.getNewestEnabledVersion keyPath
    memory (.setCurrentVersion holder value)
    return value

namespace CertificateService

def getCurrentSigningKeyVersion : SigningCall String := currentSigningKeyVersion keyPath .service

def getPublicKey : SigningCall String := do
  let keyVersionPath ← getCurrentSigningKeyVersion keyPath
  kms (.getPublicKey keyVersionPath)

def getEnabledVersions : SigningCall (List String) := do
  let cached ← memory .enabledVersions
  match cached with
  | some value => return value
  | none =>
    let value ← CloudKMSClient.listEnabledVersions
    memory (.setEnabledVersions value)
    return value

def jwkOf (keyVersionPath pem : String) : JwkFor keyVersionPath := ⟨{ pem, kid := keyVersionPath }, rfl⟩

def getJwk (keyVersionPath : String) : SigningCall (JwkFor keyVersionPath) := do
  let cached ← memory (.jwk keyVersionPath)
  match cached with
  | some jwk => return jwk
  | none =>
    let pem ← kms (.getPublicKey keyVersionPath)
    memory (.setJwk keyVersionPath (jwkOf keyVersionPath pem))
    return jwkOf keyVersionPath pem

def KeySet.nil : KeySet [] := ⟨[], rfl⟩

def KeySet.cons {keyVersionPath : String} {versions : List String} (jwk : JwkFor keyVersionPath)
    (set : KeySet versions) : KeySet (keyVersionPath :: versions) :=
  ⟨jwk.jwk :: set.keys, by rw [List.map_cons, jwk.kid, set.kids]⟩

def getKeys : (versions : List String) → SigningCall (KeySet versions)
  | [] => return KeySet.nil
  | version :: versions => ExceptT.mk (Prog.awaitAll (fun jwk set => .done (.ok (KeySet.cons jwk set)))
      (fun e => .done (.error e)) (getJwk version).run (getKeys versions).run)

def getJwks : SigningCall (List Jwk) := do
  let versions ← getEnabledVersions
  let set ← getKeys versions
  return set.keys

def rotateSigningKey (polls : ℕ) : SigningCall (String × String) := do
  let previousVersion ← getCurrentSigningKeyVersion keyPath
  let newVersion ← CloudKMSClient.createKeyVersion
  CloudKMSClient.waitForVersionEnabled newVersion polls
  memory (.invalidate newVersion)
  return (newVersion, previousVersion)

end CertificateService

namespace CertificateSigner

def getCurrentSigningKeyVersion : SigningCall String := currentSigningKeyVersion keyPath .signer

def signClaims (claims : String) : SigningCall Certificate := do
  let keyVersionPath ← getCurrentSigningKeyVersion keyPath
  let unsignedToken : UnsignedToken := { kid := keyVersionPath, claims }
  let signature ← kms (.asymmetricSign unsignedToken keyVersionPath)
  return { unsignedToken, signature }

def getKeyFingerprint : SigningCall String := do
  let keyVersionPath ← getCurrentSigningKeyVersion keyPath
  let cached ← memory (.fingerprint keyVersionPath)
  match cached with
  | some fingerprint => return fingerprint
  | none =>
    let pem ← kms (.getPublicKey keyVersionPath)
    memory (.setFingerprint keyVersionPath pem)
    return pem

end CertificateSigner

end Programs

section Interleaving

inductive SigningJob where
  | signClaims (claims : String)
  | getKeyFingerprint
  | getJwks
  | getPublicKey
  | rotateSigningKey (polls : ℕ)

def SigningJob.call (keyPath : String) : SigningJob → SigningCall Unit
  | .signClaims claims => do
    let certificate ← CertificateSigner.signClaims keyPath claims
    answer (.signed certificate)
  | .getKeyFingerprint => do
    let _ ← CertificateSigner.getKeyFingerprint keyPath
    return ()
  | .getJwks => do
    let keys ← CertificateService.getJwks
    answer (.published keys)
  | .getPublicKey => do
    let _ ← CertificateService.getPublicKey keyPath
    return ()
  | .rotateSigningKey polls => do
    let (newVersion, previousVersion) ← CertificateService.rotateSigningKey keyPath polls
    answer (.rotated newVersion previousVersion)

inductive Environment where
  | tick (ms : ℕ)
  | generation (number : ℕ) (state : VersionState)

/-- Generating the key material of a version ends well or badly, once. -/
def generate (number : ℕ) (state : VersionState) (versions : List CryptoKeyVersion) : List CryptoKeyVersion :=
  versions.map fun v => if v.number = number ∧ v.state = .pendingGeneration then { v with state } else v

def Environment.exec : Environment → State → Option State
  | .tick ms, s => some { s with clock := s.clock + ms }
  | .generation number state, s => some { s with versions := generate number state s.versions }

abbrev callers (Job : Type) (exec : (op : SigningOp) → Outcome → State → Option (Except String op.Res × State))
    (call : Job → SigningCall Unit) : Interleaving where
  State := State
  Op := SigningOp
  Ret := fun op => Except String op.Res
  Choice := Outcome
  Env := Environment
  Job := Job
  exec := exec
  env := Environment.exec
  body job := (call job).run.bind fun _ => .done ()
  forks _ _ := []
  client _ := true

abbrev signing (keyPath : String) : Interleaving :=
  callers SigningJob (SigningOp.exec keyPath) (SigningJob.call keyPath)

def started (keyPath : String) (now : ℕ) (versions : List CryptoKeyVersion) : (signing keyPath).Config :=
  Interleaving.initial ⟨now, versions, {}⟩

end Interleaving

end ChameleonVault.SigningKeys
