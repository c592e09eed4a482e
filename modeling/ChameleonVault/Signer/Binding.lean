import ChameleonVault.Concurrency.Solo
import ChameleonVault.Deletion.Ownership
import ChameleonVault.Signer.Server

/-! Whose deletion request a certificate speaks of: the request that the signer reads for a
subject, and the inputs for which it is the subject's own. -/

namespace ChameleonVault.Signer

open Concurrency Discipline Call Deletion
open KeyRegistry (Date KeyStatus truthy)

variable {k : Digests} {input : GenerateClaimsInput} {s : State} {w : World} {claims : Claims}
  {userId tenantId : String}

def isShredded (keyStatus : KeyStatus) : Bool := keyStatus.status ∈ [.shredded, .deleted]

def requestRead (input : GenerateClaimsInput) (w : World) : Option DeletionRequest :=
  match truthy input.deletionRequestId with
  | some id => w.deletionRequests.lookup id
  | none => getLatestCompletedDeletionRequestForUser input.userId input.tenant w

section Reads

/-- Claims made from a shredded key and a completed request. -/
def MadeFrom (input : GenerateClaimsInput) (keyStatus : Option KeyStatus) (request : Option DeletionRequest)
    (claims : Claims) : Prop :=
  ∃ status r, keyStatus = some status ∧ isShredded status = true ∧ request = some r ∧ isComplete r.status = true ∧
    ∃ manualEntries keyFingerprint checkedAt issuedAt, claims = claimsFor input.userId input.tenant r status
      manualEntries input.ghostDataSummary input.knownDestinationTypes keyFingerprint checkedAt issuedAt

variable (userId) in
lemma assertKeyShredded_ok_iff {keyStatus : Option KeyStatus} {status : KeyStatus} :
    CertificateSigner.assertKeyShredded userId keyStatus = .ok status ↔
      keyStatus = some status ∧ isShredded status = true := by
  cases keyStatus with
  | none => simp [CertificateSigner.assertKeyShredded]
  | some status' =>
    simp only [CertificateSigner.assertKeyShredded, Option.some.injEq]
    split
    · rename_i h
      have hs : isShredded status' = true := by simpa [isShredded] using h
      constructor
      · intro he
        obtain rfl := Except.ok.inj he
        exact ⟨rfl, hs⟩
      · rintro ⟨rfl, -⟩
        rfl
    · rename_i h
      refine ⟨nofun, ?_⟩
      rintro ⟨rfl, hs⟩
      exact (h (by simpa [isShredded] using hs)).elim

variable (userId) in
lemma assertCascadeComplete_ok_iff {request : Option DeletionRequest} {r : DeletionRequest} :
    CertificateSigner.assertCascadeComplete userId request = .ok r ↔
      request = some r ∧ isComplete r.status = true := by
  cases request with
  | none => simp [CertificateSigner.assertCascadeComplete]
  | some r' =>
    simp only [CertificateSigner.assertCascadeComplete, Option.some.injEq]
    split
    · rename_i h
      have hc : isComplete r'.status = true := by simpa [isComplete] using h
      constructor
      · intro he
        obtain rfl := Except.ok.inj he
        exact ⟨rfl, hc⟩
      · rintro ⟨rfl, -⟩
        rfl
    · rename_i h
      refine ⟨fun he => (by cases he), ?_⟩
      rintro ⟨rfl, hc⟩
      exact (h (by simpa [isComplete] using hc)).elim

lemma assertReady_ok_iff {keyStatus : Option KeyStatus} {request : Option DeletionRequest}
    {status : KeyStatus} {r : DeletionRequest} :
    CertificateSigner.assertReady userId keyStatus request = .ok (status, r) ↔
      (keyStatus = some status ∧ isShredded status = true) ∧ request = some r ∧ isComplete r.status = true := by
  rw [← assertKeyShredded_ok_iff userId, ← assertCascadeComplete_ok_iff userId]
  simp only [CertificateSigner.assertReady, bind, Except.bind]
  cases CertificateSigner.assertKeyShredded userId keyStatus with
  | error e => simp
  | ok status' =>
    cases CertificateSigner.assertCascadeComplete userId request with
    | error e => simp
    | ok r' => simp [pure, Except.pure]

/-- The stores do not change while one call reads them. -/
def readsOf (w : World) : Discipline Op (fun op => Except String op.Res) Unit where
  start := ()
  allowed _ _ := True
  next q _ _ := q
  possible
    | .getKeyStatus userId tenantId, .ok keyStatus => keyStatus = w.getKeyStatus userId tenantId
    | .getDeletionRequest id, .ok request => request = w.deletionRequests.lookup id
    | .getLatestCompletedDeletionRequestForUser userId tenantId, .ok request =>
      request = getLatestCompletedDeletionRequestForUser userId tenantId w
    | _, _ => True

lemma exec_readsOf (op : Op) (answer : Answer) (s : State) (reply : Except String op.Res) (s' : State)
    (hs : s.stores = w) (h : op.exec answer s = some (reply, s')) :
    (readsOf w).possible op reply ∧ s'.stores = w := by
  subst hs
  cases op <;> cases answer <;> cases h <;> exact ⟨by trivial, rfl⟩

lemma readRequest_keeps : (readsOf w).Keeps () (readRequest input)
    (fun request _ => request = requestRead input w) (fun _ _ => True) := by
  simp only [readRequest, requestRead]
  cases truthy input.deletionRequestId with
  | some id => exact Keeps.perform trivial (fun _ h => h) (fun _ _ => trivial)
  | none => exact Keeps.perform trivial (fun _ h => h) (fun _ _ => trivial)

lemma generateClaims_reads : (readsOf w).Keeps () (generateClaims k input)
    (fun claims _ => MadeFrom input (w.getKeyStatus input.userId input.tenant) (requestRead input w) claims)
    (fun _ _ => True) := by
  apply Keeps.bind
  refine Keeps.perform trivial (fun keyStatus hk => ?_) (fun _ _ => trivial)
  apply Keeps.bind
  refine Keeps.mono readRequest_keeps (fun request q hr => ?_) (fun _ _ _ => trivial)
  obtain rfl : keyStatus = w.getKeyStatus input.userId input.tenant := hk
  subst hr
  split
  · exact Keeps.throw trivial
  · rename_i status r hready
    obtain ⟨⟨hk, hs⟩, hr, hc⟩ := assertReady_ok_iff.mp hready
    apply Keeps.bind
    refine Keeps.perform trivial (fun checkedAt _ => ?_) (fun _ _ => trivial)
    apply Keeps.bind
    refine Keeps.perform trivial (fun manualEntries _ => ?_) (fun _ _ => trivial)
    apply Keeps.bind
    refine Keeps.perform trivial (fun issuedAt _ => ?_) (fun _ _ => trivial)
    apply Keeps.bind
    refine Keeps.neutral ((getKeyFingerprint_keyWork k).mono fun _ _ _ => ⟨trivial, fun _ => rfl⟩) (fun keyFingerprint => ?_)
      (fun _ => trivial)
    exact Keeps.pure ⟨status, r, hk, hs, hr, hc, manualEntries, keyFingerprint, checkedAt, issuedAt, rfl⟩

lemma madeFrom_of_returns (h : Returns Op.exec (generateClaims k input) s claims) :
    MadeFrom input (s.stores.getKeyStatus input.userId input.tenant) (requestRead input s.stores) claims := by
  have hreads : (readsOf s.stores).Keeps () (generateClaims k input) (fun claims _ => MadeFrom input
      (s.stores.getKeyStatus input.userId input.tenant) (requestRead input s.stores) claims) (fun _ _ => True) :=
    generateClaims_reads
  obtain ⟨reply, q, s', hgood, hreply⟩ :=
    Can.of_follows (readsOf s.stores) (fun s' => s'.stores = s.stores)
      (fun op answer s' reply s'' hs he => exec_readsOf op answer s' reply s'' hs he) hreads rfl h
  subst hreply
  exact hgood

end Reads

section Returns

lemma can_done {op : Op} {a : op.Res} {s' : State} {ok : op.Res → State → Prop}
    (he : op.exec .done s = some (.ok a, s')) (h : ok a s') : CanCall Op.exec (fun _ _ => True) (perform op) s ok :=
  CanCall.perform he trivial h

lemma can_text {op : Op} {a : op.Res} {s' : State} {ok : op.Res → State → Prop}
    (he : op.exec (.text "") s = some (.ok a, s')) (h : ok a s') :
    CanCall Op.exec (fun _ _ => True) (perform op) s ok :=
  CanCall.perform he trivial h

lemma can_getCurrentSigningKeyVersion (s : State) : CanCall Op.exec (fun _ _ => True) getCurrentSigningKeyVersion s
    (fun _ s' => s'.stores = s.stores) := by
  apply CanCall.bind
  refine can_done rfl ?_
  cases s.cachedVersion with
  | some value => exact CanCall.pure rfl
  | none =>
    apply CanCall.bind
    refine can_text rfl ?_
    apply CanCall.bind
    exact can_done rfl (CanCall.pure rfl)

lemma can_getKeyFingerprint (k : Digests) (s : State) :
    CanCall Op.exec (fun _ _ => True) (getKeyFingerprint k) s (fun _ _ => True) := by
  apply CanCall.bind
  refine (can_getCurrentSigningKeyVersion s).mono fun keyVersionPath s' _ => ?_
  apply CanCall.bind
  refine can_done rfl ?_
  cases s'.fingerprints.lookup keyVersionPath with
  | some fingerprint => exact CanCall.pure trivial
  | none =>
    apply CanCall.bind
    refine can_text rfl ?_
    apply CanCall.bind
    exact can_done rfl (CanCall.pure trivial)

lemma can_readRequest (input : GenerateClaimsInput) (s : State) :
    CanCall Op.exec (fun _ _ => True) (readRequest input) s
      (fun request s' => request = requestRead input s.stores ∧ s' = s) := by
  simp only [readRequest, requestRead]
  cases truthy input.deletionRequestId with
  | some id => exact can_done rfl ⟨rfl, rfl⟩
  | none => exact can_done rfl ⟨rfl, rfl⟩

lemma exists_returns (k : Digests) {status : KeyStatus} {r : DeletionRequest}
    (hk : s.stores.getKeyStatus input.userId input.tenant = some status) (hs : isShredded status = true)
    (hr : requestRead input s.stores = some r) (hc : isComplete r.status = true) :
    ∃ claims, Returns Op.exec (generateClaims k input) s claims := by
  suffices h : CanCall Op.exec (fun _ _ => True) (generateClaims k input) s (fun _ _ => True) from h.exists_returns
  apply CanCall.bind
  refine can_done rfl ?_
  apply CanCall.bind
  refine (can_readRequest input s).mono ?_
  rintro request s' ⟨rfl, rfl⟩
  rw [assertReady_ok_iff.mpr ⟨⟨hk, hs⟩, hr, hc⟩]
  apply CanCall.bind
  refine can_done rfl ?_
  apply CanCall.bind
  refine can_done rfl ?_
  apply CanCall.bind
  refine can_done rfl ?_
  apply CanCall.bind
  exact (can_getKeyFingerprint k _).mono fun _ _ _ => CanCall.pure trivial

end Returns

section Subject

lemma latestCompleted_belongsTo {r : DeletionRequest}
    (h : getLatestCompletedDeletionRequestForUser userId tenantId w = some r) : r.BelongsTo userId tenantId := by
  have hm := (List.mem_filter.mp (newest_mem h)).2
  simp only [Bool.decide_and, Bool.and_eq_true, decide_eq_true_eq] at hm
  exact ⟨hm.1, hm.2.1⟩

/-- A completed request that is named by its id is the subject's own, if the subject's key is gone. -/
def NamesOwnRequest (input : GenerateClaimsInput) (w : World) : Prop :=
  ∀ id r status, truthy input.deletionRequestId = some id → w.deletionRequests.lookup id = some r →
    isComplete r.status = true → w.getKeyStatus input.userId input.tenant = some status →
      isShredded status = true → r.BelongsTo input.userId input.tenant

theorem generateClaims_binds_iff (k : Digests) (input : GenerateClaimsInput) (s : State) :
    (∀ claims, Returns Op.exec (generateClaims k input) s claims → ∃ r, requestRead input s.stores = some r ∧
      DerivedFrom r claims ∧ r.BelongsTo input.userId input.tenant) ↔ NamesOwnRequest input s.stores := by
  constructor
  · intro h id r status hid hl hc hk hs
    have hr : requestRead input s.stores = some r := by simp only [requestRead, hid, hl]
    obtain ⟨claims, hclaims⟩ := exists_returns k hk hs hr hc
    obtain ⟨r', hr', -, hb⟩ := h claims hclaims
    obtain rfl := Option.some.inj (hr.symm.trans hr')
    exact hb
  · intro h claims hclaims
    obtain ⟨status, r, hk, hs, hr, hc, manualEntries, keyFingerprint, checkedAt, issuedAt, rfl⟩ :=
      madeFrom_of_returns hclaims
    refine ⟨r, hr, claimsFor_derivedFrom, ?_⟩
    cases hid : truthy input.deletionRequestId with
    | some id =>
      simp only [requestRead, hid] at hr
      exact h id r status hid hr hc hk hs
    | none =>
      simp only [requestRead, hid] at hr
      exact latestCompleted_belongsTo hr

end Subject

section Examples

def bobsRequest : DeletionRequest :=
  { DeletionRequest.new "bob" "bobs-request" "globex" none 0 with
    status := .cascadeComplete
    janitorWipes := [⟨"hubspot", .succeeded, 5, { recordsFound := some 3 }⟩] }

/-- Ada's key is gone, and Bob's request is the only one. -/
def foreignStores : World :=
  { emptyVault 10 with
    keyRegistry := (∅ : AList (fun _ : String => KeyRegistry.KeyMetadata)).insert "acme:ada" { status := .shredded }
    deletionRequests := (∅ : AList (fun _ : String => DeletionRequest)).insert "bobs-request" bobsRequest }

def foreignInput : GenerateClaimsInput where
  userId := "ada"
  tenantId := some "acme"
  deletionRequestId := some "bobs-request"
  ghostDataSummary := []
  knownDestinationTypes := registeredConnectors

def plainDigests : Digests := ⟨fun pem => pem, fun certificate => certificate.signature⟩

theorem generateClaims_for_foreign_request :
    ∃ claims, Returns Op.exec (generateClaims plainDigests foreignInput) { stores := foreignStores } claims ∧
      claims.sub = "ada" ∧ claims.tenantId = "acme" ∧
      claims.lineageSummary.map (fun item => (item.system, item.status)) = [("hubspot", .erased)] ∧
      requestRead foreignInput foreignStores = some bobsRequest ∧ ¬ bobsRequest.BelongsTo "ada" "acme" := by
  have hr : requestRead foreignInput foreignStores = some bobsRequest := rfl
  obtain ⟨claims, hclaims⟩ := exists_returns plainDigests (s := { stores := foreignStores }) rfl rfl hr rfl
  obtain ⟨status, r, -, -, hr', -, manualEntries, keyFingerprint, checkedAt, issuedAt, rfl⟩ :=
    madeFrom_of_returns hclaims
  obtain rfl := Option.some.inj (hr.symm.trans hr')
  exact ⟨_, hclaims, rfl, rfl, rfl, rfl, fun hb => absurd hb.1 (by decide)⟩

end Examples

end ChameleonVault.Signer
