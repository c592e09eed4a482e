import ChameleonVault.Concurrency.Invariants
import ChameleonVault.SigningKeys.Service

/-! What one caller of the signing key has learnt from the replies it got. -/

namespace ChameleonVault.SigningKeys

open Concurrency Interleaving Discipline

section Knowledge

structure Knowledge where
  seen : Option (List String) := none
  listed : Option (List String) := none
  signer : Option String := none
  versions : Option (List String) := none
  ready : Option String := none
  invalidated : Option String := none

def knowledge : Discipline SigningOp (fun op => Except String op.Res) Knowledge where
  start := {}
  allowed q
    | .memory (.setCurrentVersion _ value) => ∃ names, q.listed = some names ∧ newest names = some value
    | .memory (.setEnabledVersions value) => q.listed = some value
    | .memory (.invalidate newVersion) => q.ready = some newVersion
    | .kms (.endList seen) => q.seen = some seen
    | .answer (.signed certificate) => q.signer = some certificate.unsignedToken.kid
    | .answer (.published keys) => q.versions = some (keys.map Jwk.kid)
    | .answer (.rotated newVersion _) => q.invalidated = some newVersion
    | _ => True
  next q
    | .memory (.currentVersion .service), _ => { q with seen := none, listed := none }
    | .memory (.currentVersion .signer), .ok value => { q with seen := none, listed := none, signer := value }
    | .memory (.setCurrentVersion .signer value), _ => { q with signer := some value }
    | .memory .enabledVersions, .ok value => { q with seen := none, listed := none, versions := value }
    | .memory (.setEnabledVersions value), _ => { q with versions := some value }
    | .memory (.invalidate newVersion), _ => { q with invalidated := some newVersion }
    | .kms .beginList, .ok names => { q with seen := some names, listed := none }
    | .kms (.endList _), .ok names => { q with listed := some names }
    | .kms (.getCryptoKeyVersion name), .ok .enabled => { q with ready := some name }
    | _, _ => q
  possible _ _ := True

variable {q : Knowledge} {keyPath name keyVersionPath : String} {holder : Holder}

def isQuiet : SigningOp → Bool
  | .memory (.jwk _) => true
  | .memory (.setJwk _ _) => true
  | .memory (.fingerprint _) => true
  | .memory (.setFingerprint _ _) => true
  | .memory .now => true
  | .kms .createCryptoKeyVersion => true
  | .kms (.getPublicKey _) => true
  | .kms (.asymmetricSign _ _) => true
  | .wake _ => true
  | _ => false

lemma quiet_neutral {op : SigningOp} (h : isQuiet op = true) : knowledge.Neutral op := by
  intro q
  cases op with
  | memory op => cases op <;> cases h <;> exact ⟨trivial, fun _ => rfl⟩
  | kms op => cases op <;> cases h <;> exact ⟨trivial, fun _ => rfl⟩
  | wake time => exact ⟨trivial, fun _ => rfl⟩
  | answer a => cases h

lemma perform_keeps {op : SigningOp} {ok : op.Res → Knowledge → Prop} (hop : isQuiet op = true) (h : ∀ a, ok a q) :
    knowledge.Keeps q (perform op) ok (fun _ _ => True) :=
  Keeps.neutral (Call.uses_perform (quiet_neutral hop)) h (fun _ => trivial)

end Knowledge

section Calls

variable {q : Knowledge} {keyPath name : String} {versions : List String}

lemma listEnabledVersions_keeps : knowledge.Keeps q CloudKMSClient.listEnabledVersions
    (fun names q' => ∃ seen, q' = { q with seen := some seen, listed := some names }) (fun _ _ => True) := by
  apply Keeps.bind
  refine Keeps.perform trivial (fun seen _ => ?_) (fun _ _ => trivial)
  exact Keeps.perform rfl (fun names _ => ⟨seen, rfl⟩) (fun _ _ => trivial)

lemma getNewestEnabledVersion_keeps : knowledge.Keeps q (CloudKMSClient.getNewestEnabledVersion keyPath)
    (fun value q' => ∃ names, q'.listed = some names ∧ newest names = some value) (fun _ _ => True) := by
  apply Keeps.bind
  refine Keeps.mono listEnabledVersions_keeps ?_ (fun _ _ => id)
  rintro names _ ⟨seen, rfl⟩
  cases h : newest names with
  | none => exact Keeps.throw trivial
  | some value => exact Keeps.pure ⟨names, rfl, h⟩

lemma currentSigningKeyVersion_keeps (holder : Holder) : knowledge.Keeps q (currentSigningKeyVersion keyPath holder)
    (fun value q' => holder = .signer → q'.signer = some value) (fun _ _ => True) := by
  apply Keeps.bind
  refine Keeps.perform trivial (fun cached _ => ?_) (fun _ _ => trivial)
  cases cached with
  | some value =>
    apply Keeps.pure
    rintro rfl
    rfl
  | none =>
    apply Keeps.bind
    refine Keeps.mono getNewestEnabledVersion_keeps ?_ (fun _ _ => id)
    intro value q' h
    apply Keeps.bind
    refine Keeps.perform h (fun _ _ => ?_) (fun _ _ => trivial)
    apply Keeps.pure
    rintro rfl
    rfl

lemma getEnabledVersions_keeps : knowledge.Keeps q CertificateService.getEnabledVersions
    (fun versions q' => q'.versions = some versions) (fun _ _ => True) := by
  apply Keeps.bind
  refine Keeps.perform trivial (fun cached _ => ?_) (fun _ _ => trivial)
  cases cached with
  | some value => exact Keeps.pure rfl
  | none =>
    apply Keeps.bind
    refine Keeps.mono listEnabledVersions_keeps ?_ (fun _ _ => id)
    rintro names _ ⟨seen, rfl⟩
    apply Keeps.bind
    refine Keeps.perform rfl (fun _ _ => ?_) (fun _ _ => trivial)
    exact Keeps.pure rfl

lemma getJwk_uses (keyVersionPath : String) : (CertificateService.getJwk keyVersionPath).run.Uses knowledge.Neutral := by
  apply Call.uses_bind (Call.uses_perform (quiet_neutral rfl))
  intro cached
  cases cached with
  | some jwk => exact Call.uses_pure _
  | none =>
    apply Call.uses_bind (Call.uses_perform (quiet_neutral rfl))
    intro pem
    apply Call.uses_bind (Call.uses_perform (quiet_neutral rfl))
    exact fun _ => Call.uses_pure _

lemma getKeys_uses (versions : List String) : (CertificateService.getKeys versions).run.Uses knowledge.Neutral := by
  induction versions with
  | nil => exact Call.uses_pure _
  | cons version versions ih => exact .awaitAll (getJwk_uses version) ih (fun _ _ => trivial) (fun _ => trivial)

lemma getJwks_keeps : knowledge.Keeps q CertificateService.getJwks
    (fun keys q' => q'.versions = some (keys.map Jwk.kid)) (fun _ _ => True) := by
  apply Keeps.bind
  refine Keeps.mono getEnabledVersions_keeps ?_ (fun _ _ => id)
  intro versions q' h
  apply Keeps.bind
  refine Keeps.neutral (getKeys_uses versions) (fun set => ?_) (fun _ => trivial)
  apply Keeps.pure
  rw [h, set.kids]

lemma poll_keeps (deadline polls : ℕ) : knowledge.Keeps q (CloudKMSClient.poll name deadline polls)
    (fun _ q' => q'.ready = some name) (fun _ _ => True) := by
  induction polls generalizing q with
  | zero => exact Keeps.throw trivial
  | succ polls ih =>
    apply Keeps.bind
    refine Keeps.perform trivial (fun state _ => ?_) (fun _ _ => trivial)
    cases state with
    | enabled => exact Keeps.pure rfl
    | generationFailed => exact Keeps.throw trivial
    | pendingGeneration =>
      apply Keeps.bind
      refine perform_keeps rfl fun now => ?_
      split
      · exact Keeps.throw trivial
      · apply Keeps.bind
        exact perform_keeps rfl fun _ => ih

lemma rotateSigningKey_keeps (polls : ℕ) : knowledge.Keeps q (CertificateService.rotateSigningKey keyPath polls)
    (fun rotation q' => q'.invalidated = some rotation.1) (fun _ _ => True) := by
  apply Keeps.bind
  refine Keeps.mono (currentSigningKeyVersion_keeps .service) (fun previousVersion q' _ => ?_) (fun _ _ => id)
  apply Keeps.bind
  refine perform_keeps rfl fun newVersion => ?_
  apply Keeps.bind
  apply Keeps.bind
  refine perform_keeps rfl fun now => ?_
  refine Keeps.mono (poll_keeps _ polls) (fun _ q' h => ?_) (fun _ _ => id)
  apply Keeps.bind
  refine Keeps.perform h (fun _ _ => ?_) (fun _ _ => trivial)
  exact Keeps.pure rfl

lemma signClaims_keeps (claims : String) : knowledge.Keeps q (CertificateSigner.signClaims keyPath claims)
    (fun certificate q' => q'.signer = some certificate.unsignedToken.kid) (fun _ _ => True) := by
  apply Keeps.bind
  refine Keeps.mono (currentSigningKeyVersion_keeps .signer) (fun value q' h => ?_) (fun _ _ => id)
  apply Keeps.bind
  exact perform_keeps rfl fun signature => Keeps.pure (h rfl)

lemma getKeyFingerprint_keeps : knowledge.Keeps q (CertificateSigner.getKeyFingerprint keyPath)
    (fun _ _ => True) (fun _ _ => True) := by
  apply Keeps.bind
  refine Keeps.mono (currentSigningKeyVersion_keeps .signer) (fun value q' _ => ?_) (fun _ _ => id)
  apply Keeps.bind
  refine perform_keeps rfl fun cached => ?_
  cases cached with
  | some fingerprint => exact Keeps.pure trivial
  | none =>
    apply Keeps.bind
    refine perform_keeps rfl fun pem => ?_
    apply Keeps.bind
    exact perform_keeps rfl fun _ => Keeps.pure trivial

lemma job_keeps (job : SigningJob) : knowledge.Keeps q (job.call keyPath) (fun _ _ => True) (fun _ _ => True) := by
  cases job with
  | signClaims claims =>
    apply Keeps.bind
    refine Keeps.mono (signClaims_keeps claims) (fun certificate q' h => ?_) (fun _ _ => id)
    exact Keeps.perform h (fun _ _ => trivial) (fun _ _ => trivial)
  | getKeyFingerprint => exact Keeps.bind (Keeps.mono getKeyFingerprint_keeps (fun _ _ _ => Keeps.pure trivial) (fun _ _ => id))
  | getJwks =>
    apply Keeps.bind
    refine Keeps.mono getJwks_keeps (fun keys q' h => ?_) (fun _ _ => id)
    exact Keeps.perform h (fun _ _ => trivial) (fun _ _ => trivial)
  | getPublicKey =>
    apply Keeps.bind
    apply Keeps.bind
    refine Keeps.mono (currentSigningKeyVersion_keeps .service) (fun value q' _ => ?_) (fun _ _ => id)
    exact perform_keeps rfl fun _ => Keeps.pure trivial
  | rotateSigningKey polls =>
    apply Keeps.bind
    refine Keeps.mono (rotateSigningKey_keeps polls) (fun rotation q' h => ?_) (fun _ _ => id)
    exact Keeps.perform h (fun _ _ => trivial) (fun _ _ => trivial)

lemma knowledge_governs : Governs (S := signing keyPath) knowledge (fun _ => True) :=
  ⟨fun j => Follows.bind (Follows.mono (job_keeps j) fun _ _ _ => trivial),
    fun _ _ => ⟨trivial, trivial⟩, fun _ _ => trivial⟩

end Calls

end ChameleonVault.SigningKeys
