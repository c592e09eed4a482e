import ChameleonVault.Deletion.Certificates
import ChameleonVault.SigningKeys.Knowledge

/-! Certificates are produced in two steps: claims with the fingerprint of the signing key, then
signatures over them. Both steps look up the version of the key for themselves. -/

namespace ChameleonVault.SigningKeys

open Concurrency Interleaving Discipline

section Production

structure DestructionCertificateClaims extends Deletion.Claims where
  previousCertificateHash : Option String
  chainSequence : ℕ

/-- The claims as they are signed, of which the fingerprint can be read. -/
structure ClaimsText where
  stringify : DestructionCertificateClaims → String
  keyFingerprint : String → Option String
  keyFingerprint_stringify (claims : DestructionCertificateClaims) :
    keyFingerprint (stringify claims) = some claims.keyFingerprint

structure ChainPosition where
  previousCertificateHash : Option String
  chainSequence : ℕ

variable (keyPath : String) (publicKey : String → String) (text : ClaimsText)

/-- The public key of a version does not change. -/
def SigningOp.served : (op : SigningOp) → Outcome → State → Option (Except String op.Res × State)
  | .kms (.getPublicKey keyVersionPath), .text pem, s =>
    if pem = publicKey keyVersionPath then some (.ok pem, s) else none
  | op, choice, s => op.exec keyPath choice s

/-- The claims are otherwise complete by the time the fingerprint is put in. -/
def CertificateSigner.generateClaims (claims : Deletion.Claims) : SigningCall Deletion.Claims := do
  let keyFingerprint ← CertificateSigner.getKeyFingerprint keyPath
  return { claims with keyFingerprint }

def signAt (baseClaims : Deletion.Claims) (position : ChainPosition) : SigningCall Unit := do
  let certificate ← CertificateSigner.signClaims keyPath (text.stringify { baseClaims with
    previousCertificateHash := position.previousCertificateHash, chainSequence := position.chainSequence })
  answer (.signed certificate)

/-- The transaction that appends to the chain signs anew each time it is tried. -/
def CertificateService.issueAndStoreCertificate (claims : Deletion.Claims) (tries : List ChainPosition) :
    SigningCall Unit := do
  let baseClaims ← CertificateSigner.generateClaims keyPath claims
  let _ ← Call.each (signAt keyPath text baseClaims) tries
  return ()

inductive ProductionJob where
  | issueAndStoreCertificate (claims : Deletion.Claims) (tries : List ChainPosition)
  | getJwks
  | getPublicKey
  | rotateSigningKey (polls : ℕ)

def ProductionJob.call : ProductionJob → SigningCall Unit
  | .issueAndStoreCertificate claims tries => CertificateService.issueAndStoreCertificate keyPath text claims tries
  | .getJwks => SigningJob.getJwks.call keyPath
  | .getPublicKey => SigningJob.getPublicKey.call keyPath
  | .rotateSigningKey polls => (SigningJob.rotateSigningKey polls).call keyPath

abbrev production : Interleaving :=
  callers ProductionJob (SigningOp.served keyPath publicKey) (ProductionJob.call keyPath text)

def producing (now : ℕ) (versions : List CryptoKeyVersion) : (production keyPath publicKey text).Config :=
  Interleaving.initial ⟨now, versions, {}⟩

end Production

section Drafts

/-- What a production has in hand: the version that it looked up last, the version that it last
found in the cache or left there, and the version that the fingerprint in its claims is of. -/
structure Draft where
  version : Option String := none
  held : Option String := none
  source : Option String := none
  fingerprint : Option String := none

def drafting (publicKey : String → String) (text : ClaimsText) : Discipline SigningOp (fun op => Except String op.Res) Draft where
  start := {}
  allowed q
    | .memory (.setCurrentVersion .signer value) => q.version = some value
    | .memory (.fingerprint keyVersionPath) => q.version = some keyVersionPath ∧ q.held = some keyVersionPath
    | .memory (.setFingerprint keyVersionPath pem) => q.source = some keyVersionPath ∧ q.fingerprint = some pem
    | .kms (.getPublicKey keyVersionPath) => ∀ source ∈ q.source, keyVersionPath = source
    | .answer (.signed certificate) => q.version = some certificate.kid ∧ q.source.isSome = true ∧
        (text.keyFingerprint certificate.unsignedToken.claims).isSome = true ∧
        text.keyFingerprint certificate.unsignedToken.claims = q.fingerprint
    | _ => True
  next q
    | .memory (.currentVersion .signer), .ok value => { q with version := value, held := value.or q.held }
    | .memory (.setCurrentVersion .signer value), _ => { q with held := some value }
    | .kms (.endList _), .ok names => { q with version := newest names }
    | .memory (.fingerprint keyVersionPath), .ok cached => { q with source := some keyVersionPath, fingerprint := cached }
    | .kms (.getPublicKey _), .ok pem => { q with fingerprint := some pem }
    | _, _ => q
  possible
    | .kms (.getPublicKey keyVersionPath), .ok pem => pem = publicKey keyVersionPath
    | _, _ => True

variable {keyPath : String} {publicKey : String → String} {text : ClaimsText} {q : Draft}

/-- What the other callers do, none of whom drafts claims. -/
def isForeign : SigningOp → Bool
  | .memory (.setCurrentVersion .signer _) => false
  | .memory (.fingerprint _) => false
  | .memory (.setFingerprint _ _) => false
  | .answer (.signed _) => false
  | _ => true

lemma foreign_allowed (publicKey : String → String) (text : ClaimsText) {op : SigningOp} (hop : isForeign op = true) (hq : q.source = none) :
    (drafting publicKey text).allowed q op ∧ ∀ r, ((drafting publicKey text).next q op r).source = none := by
  cases op with
  | memory op =>
    cases op with
    | currentVersion holder => cases holder <;> exact ⟨trivial, fun r => by cases r <;> exact hq⟩
    | setCurrentVersion holder value =>
      cases holder with
      | service => exact ⟨trivial, fun _ => hq⟩
      | signer => cases hop
    | fingerprint keyVersionPath | setFingerprint keyVersionPath pem => cases hop
    | _ => exact ⟨trivial, fun _ => hq⟩
  | kms op =>
    cases op with
    | endList seen => exact ⟨trivial, fun r => by cases r <;> exact hq⟩
    | getPublicKey keyVersionPath =>
      refine ⟨fun source hs => ?_, fun r => by cases r <;> exact hq⟩
      rw [hq] at hs
      cases hs
    | _ => exact ⟨trivial, fun _ => hq⟩
  | wake time => exact ⟨trivial, fun _ => hq⟩
  | answer a =>
    cases a with
    | signed certificate => cases hop
    | _ => exact ⟨trivial, fun _ => hq⟩

lemma foreign_follows {α : Type} {p : Prog SigningOp (fun op => Except String op.Res) α}
    (hp : p.Uses fun op => isForeign op = true) (hq : q.source = none) :
    (drafting publicKey text).Follows q p fun _ _ => True := by
  induction p generalizing q with
  | done a => trivial
  | step op next ih =>
    obtain ⟨hallowed, hnext⟩ := foreign_allowed publicKey text hp.1 hq
    exact ⟨hallowed, fun r _ => ih r (hp.2 r) (hnext r)⟩
  | choose next ih => exact fun c => ih c (hp c) hq

end Drafts

section Callers

variable {keyPath : String} {publicKey : String → String} {text : ClaimsText} {q : Draft}

abbrev Foreign (x : SigningCall Unit) : Prop := x.run.Uses fun op => isForeign op = true

lemma foreign_memory {op : MemoryOp} (hop : isForeign (.memory op) = true) :
    (memory op).run.Uses fun op => isForeign op = true := Call.uses_perform hop

lemma foreign_kms (op : KmsOp) : (kms op).run.Uses fun op => isForeign op = true := Call.uses_perform rfl

lemma foreign_listEnabledVersions :
    CloudKMSClient.listEnabledVersions.run.Uses fun op => isForeign op = true :=
  Call.uses_bind (foreign_kms _) fun _ => foreign_kms _

lemma foreign_currentSigningKeyVersion :
    (currentSigningKeyVersion keyPath .service).run.Uses fun op => isForeign op = true := by
  refine Call.uses_bind (foreign_memory rfl) fun cached => ?_
  cases cached with
  | some value => exact Call.uses_pure _
  | none =>
    refine Call.uses_bind (Call.uses_bind foreign_listEnabledVersions fun versions => ?_) fun value => ?_
    · cases newest versions with
      | some version => exact Call.uses_pure _
      | none => exact Call.uses_throw _
    · exact Call.uses_bind (foreign_memory rfl) fun _ => Call.uses_pure _

lemma foreign_getJwk (keyVersionPath : String) :
    (CertificateService.getJwk keyVersionPath).run.Uses fun op => isForeign op = true := by
  refine Call.uses_bind (foreign_memory rfl) fun cached => ?_
  cases cached with
  | some jwk => exact Call.uses_pure _
  | none => exact Call.uses_bind (foreign_kms _) fun pem => Call.uses_bind (foreign_memory rfl) fun _ => Call.uses_pure _

lemma foreign_getKeys (versions : List String) :
    (CertificateService.getKeys versions).run.Uses fun op => isForeign op = true := by
  induction versions with
  | nil => exact Call.uses_pure _
  | cons version versions ih => exact .awaitAll (foreign_getJwk version) ih (fun _ _ => trivial) (fun _ => trivial)

lemma foreign_getJwks (keyPath : String) : Foreign (SigningJob.getJwks.call keyPath) := by
  refine Call.uses_bind (Call.uses_bind ?_ fun versions => ?_) fun keys => Call.uses_perform rfl
  · refine Call.uses_bind (foreign_memory rfl) fun cached => ?_
    cases cached with
    | some value => exact Call.uses_pure _
    | none =>
      exact Call.uses_bind foreign_listEnabledVersions fun value =>
        Call.uses_bind (foreign_memory rfl) fun _ => Call.uses_pure _
  · exact Call.uses_bind (foreign_getKeys versions) fun set => Call.uses_pure _

lemma foreign_poll (name : String) (deadline polls : ℕ) :
    (CloudKMSClient.poll name deadline polls).run.Uses fun op => isForeign op = true := by
  induction polls with
  | zero => exact Call.uses_throw _
  | succ polls ih =>
    refine Call.uses_bind (foreign_kms _) fun state => ?_
    cases state with
    | enabled => exact Call.uses_pure _
    | generationFailed => exact Call.uses_throw _
    | pendingGeneration =>
      refine Call.uses_bind (foreign_memory rfl) fun now => ?_
      split
      · exact Call.uses_throw _
      · exact Call.uses_bind (Call.uses_perform rfl) fun _ => ih

lemma foreign_rotateSigningKey (polls : ℕ) : Foreign ((SigningJob.rotateSigningKey polls).call keyPath) := by
  refine Call.uses_bind (Call.uses_bind foreign_currentSigningKeyVersion fun previousVersion => ?_) fun rotation =>
    Call.uses_perform rfl
  refine Call.uses_bind (foreign_kms _) fun newVersion => Call.uses_bind ?_ fun _ =>
    Call.uses_bind (foreign_memory rfl) fun _ => Call.uses_pure _
  exact Call.uses_bind (foreign_memory rfl) fun now => foreign_poll newVersion _ polls

lemma foreign_getPublicKey : Foreign (SigningJob.getPublicKey.call keyPath) :=
  Call.uses_bind (Call.uses_bind foreign_currentSigningKeyVersion fun _ => foreign_kms _) fun _ => Call.uses_pure _

end Callers

section Producers

variable {keyPath : String} {publicKey : String → String} {text : ClaimsText} {q : Draft}

lemma signerLookup_keeps : (drafting publicKey text).Keeps q (currentSigningKeyVersion keyPath .signer)
    (fun value q' => q' = { q with version := some value, held := some value }) fun _ _ => True := by
  apply Keeps.bind
  refine Keeps.perform trivial (fun cached _ => ?_) (fun _ _ => trivial)
  cases cached with
  | some value => exact Keeps.pure rfl
  | none =>
    apply Keeps.bind
    apply Keeps.bind
    apply Keeps.bind
    refine Keeps.perform trivial (fun seen _ => ?_) (fun _ _ => trivial)
    refine Keeps.perform trivial (fun names _ => ?_) (fun _ _ => trivial)
    cases h : newest names with
    | none => exact Keeps.throw trivial
    | some value =>
      apply Keeps.pure
      apply Keeps.bind
      refine Keeps.perform h (fun _ _ => ?_) (fun _ _ => trivial)
      apply Keeps.pure
      simp only [drafting, h]

lemma fingerprint_keeps : (drafting publicKey text).Keeps q (CertificateSigner.getKeyFingerprint keyPath)
    (fun pem q' => q'.source.isSome = true ∧ q'.fingerprint = some pem) fun _ _ => True := by
  apply Keeps.bind
  refine Keeps.mono signerLookup_keeps ?_ (fun _ _ => id)
  rintro value _ rfl
  apply Keeps.bind
  refine Keeps.perform ⟨rfl, rfl⟩ (fun cached _ => ?_) (fun _ _ => trivial)
  cases cached with
  | some pem => exact Keeps.pure ⟨rfl, rfl⟩
  | none =>
    apply Keeps.bind
    refine Keeps.perform ?_ (fun pem _ => ?_) (fun _ _ => trivial)
    · rintro source hs
      exact Option.some.inj hs
    · apply Keeps.bind
      exact Keeps.perform ⟨rfl, rfl⟩ (fun _ _ => Keeps.pure ⟨rfl, rfl⟩) (fun _ _ => trivial)

lemma signAt_keeps {claims : Deletion.Claims} (position : ChainPosition) (hs : q.source.isSome = true)
    (hf : q.fingerprint = some claims.keyFingerprint) :
    (drafting publicKey text).Keeps q (signAt keyPath text claims position)
      (fun _ q' => q'.source.isSome = true ∧ q'.fingerprint = some claims.keyFingerprint) fun _ _ => True := by
  apply Keeps.bind
  apply Keeps.bind
  refine Keeps.mono signerLookup_keeps ?_ (fun _ _ => id)
  rintro value _ rfl
  apply Keeps.bind
  refine Keeps.perform trivial (fun signature _ => ?_) (fun _ _ => trivial)
  apply Keeps.pure
  have hclaims := text.keyFingerprint_stringify { claims with
    previousCertificateHash := position.previousCertificateHash, chainSequence := position.chainSequence }
  refine Keeps.perform ⟨rfl, hs, ?_, ?_⟩ (fun _ _ => ⟨hs, hf⟩) (fun _ _ => trivial)
  · exact hclaims ▸ rfl
  · exact hclaims.trans hf.symm

lemma production_keeps (claims : Deletion.Claims) (tries : List ChainPosition) :
    (drafting publicKey text).Keeps q (CertificateService.issueAndStoreCertificate keyPath text claims tries)
      (fun _ _ => True) fun _ _ => True := by
  apply Keeps.bind
  apply Keeps.bind
  refine Keeps.mono fingerprint_keeps ?_ (fun _ _ => id)
  rintro pem q' ⟨hs, hf⟩
  apply Keeps.pure
  apply Keeps.bind
  exact Keeps.mono (Keeps.each (fun position q'' h => signAt_keeps position h.1 h.2) tries ⟨hs, hf⟩)
    (fun _ _ _ => Keeps.pure trivial) (fun _ _ => id)

lemma drafting_governs : Governs (S := production keyPath publicKey text) (drafting publicKey text) fun _ => True where
  body job := by
    cases job with
    | issueAndStoreCertificate claims tries =>
      exact Follows.bind (Follows.mono (production_keeps claims tries) fun _ _ _ => trivial)
    | getJwks => exact Follows.bind (Follows.mono (foreign_follows (foreign_getJwks keyPath) rfl) fun _ _ _ => trivial)
    | getPublicKey => exact Follows.bind (Follows.mono (foreign_follows foreign_getPublicKey rfl) fun _ _ _ => trivial)
    | rotateSigningKey polls =>
      exact Follows.bind (Follows.mono (foreign_follows (foreign_rotateSigningKey polls) rfl) fun _ _ _ => trivial)
  exec {op choice s s' r} _ he := by
    refine ⟨?_, trivial⟩
    cases op with
    | kms op =>
      cases op with
      | getPublicKey keyVersionPath =>
        cases r with
        | error e => trivial
        | ok pem =>
          cases choice with
          | text pem' =>
            simp only [SigningOp.served, Option.ite_none_right_eq_some] at he
            obtain ⟨hpem, he⟩ := he
            obtain rfl := Except.ok.inj (Prod.mk.inj (Option.some.inj he)).1
            exact hpem
          | fail created => cases created <;> cases he
          | _ => cases he
      | _ => trivial
    | _ => trivial
  env _ _ := trivial

lemma signAt_learns {k : Knowledge} (claims : Deletion.Claims) (position : ChainPosition) :
    knowledge.Keeps k (signAt keyPath text claims position) (fun _ _ => True) fun _ _ => True := by
  apply Keeps.bind
  refine Keeps.mono (signClaims_keeps _) (fun certificate k' h => ?_) (fun _ _ => id)
  exact Keeps.perform h (fun _ _ => trivial) (fun _ _ => trivial)

lemma production_learns {k : Knowledge} (claims : Deletion.Claims) (tries : List ChainPosition) :
    knowledge.Keeps k (CertificateService.issueAndStoreCertificate keyPath text claims tries)
      (fun _ _ => True) fun _ _ => True := by
  apply Keeps.bind
  apply Keeps.bind
  refine Keeps.mono getKeyFingerprint_keeps (fun pem k' _ => ?_) (fun _ _ => id)
  apply Keeps.pure
  apply Keeps.bind
  have heach : knowledge.Keeps k' (Call.each (signAt keyPath text { claims with keyFingerprint := pem }) tries)
      (fun _ _ => True) fun _ _ => True :=
    Keeps.each (fun position _ _ => signAt_learns _ position) tries trivial
  exact Keeps.mono heach (fun _ _ _ => Keeps.pure trivial) (fun _ _ => id)

lemma productions_learn : Governs (S := production keyPath publicKey text) knowledge fun _ => True where
  body job := by
    have hjob {k : Knowledge} (job : SigningJob) :
        knowledge.Keeps k (job.call keyPath) (fun _ _ => True) fun _ _ => True := job_keeps job
    cases job with
    | issueAndStoreCertificate claims tries =>
      exact Follows.bind (Follows.mono (production_learns claims tries) fun _ _ _ => trivial)
    | getJwks => exact Follows.bind (Follows.mono (hjob .getJwks) fun _ _ _ => trivial)
    | getPublicKey => exact Follows.bind (Follows.mono (hjob .getPublicKey) fun _ _ _ => trivial)
    | rotateSigningKey polls => exact Follows.bind (Follows.mono (hjob (.rotateSigningKey polls)) fun _ _ _ => trivial)
  exec _ _ := ⟨trivial, trivial⟩
  env _ _ := trivial

end Producers

end ChameleonVault.SigningKeys
