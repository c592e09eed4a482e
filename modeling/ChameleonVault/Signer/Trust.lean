import ChameleonVault.Concurrency.Invariants
import ChameleonVault.Signer.Binding

/-! What the signer's two endpoints promise together: the claims that it answers are made from
what it read itself, and what it signs is what the caller sends. -/

namespace ChameleonVault.Signer

open Concurrency Interleaving Discipline Call Deletion
open KeyRegistry (Date KeyStatus truthy)

variable {k : Digests} {input : GenerateClaimsInput} {s s' : State} {w : World} {claims : Claims}
  {log : (signer k).Log} {a : (signer k).Action} {t : ℕ}

/-- What one call knows: its request, and what it has read for it. -/
structure Knowledge where
  request : Option Request := none
  keyStatus : Option (Option KeyStatus) := none
  evidence : Option (Option DeletionRequest) := none

def calls : Discipline Op (fun op => Except String op.Res) Knowledge where
  start := {}
  allowed q
    | .getKeyStatus userId tenantId => ∃ input, q.request = some (.generateClaims input) ∧
        userId = input.userId ∧ tenantId = input.tenant
    | .getDeletionRequest id => ∃ input, q.request = some (.generateClaims input) ∧
        truthy input.deletionRequestId = some id
    | .getLatestCompletedDeletionRequestForUser userId tenantId => ∃ input,
        q.request = some (.generateClaims input) ∧ truthy input.deletionRequestId = none ∧
        userId = input.userId ∧ tenantId = input.tenant
    | .sendJson _ (.claims claims) => ∃ input keyStatus evidence, q.request = some (.generateClaims input) ∧
        q.keyStatus = some keyStatus ∧ q.evidence = some evidence ∧ MadeFrom input keyStatus evidence claims
    | .sendJson _ (.certificate certificate _) => q.request = some (.signClaims certificate.payload)
    | _ => True
  next q
    | .verify request, .ok true => { request := some request }
    | .getKeyStatus _ _, .ok keyStatus => { q with keyStatus := some keyStatus }
    | .getDeletionRequest _, .ok request => { q with evidence := some request }
    | .getLatestCompletedDeletionRequestForUser _ _, .ok request => { q with evidence := some request }
    | _, _ => q
  possible _ _ := True

section Follows

variable {q : Knowledge}

lemma neutral_of_keyWork (op : Op) (h : KeyWork op) : calls.Neutral op := by
  intro q
  cases op <;> first | contradiction | exact ⟨trivial, fun _ => rfl⟩

lemma readRequest_calls (hq : q.request = some (.generateClaims input)) :
    calls.Keeps q (readRequest input) (fun evidence q' => q' = { q with evidence := some evidence })
      (fun _ _ => True) := by
  simp only [readRequest]
  cases hid : truthy input.deletionRequestId with
  | some id => exact Keeps.perform ⟨input, hq, hid⟩ (fun _ _ => rfl) (fun _ _ => trivial)
  | none => exact Keeps.perform ⟨input, hq, hid, rfl, rfl⟩ (fun _ _ => rfl) (fun _ _ => trivial)

lemma generateClaims_calls (hq : q.request = some (.generateClaims input)) :
    calls.Keeps q (generateClaims k input)
      (fun claims q' => q'.request = some (.generateClaims input) ∧ ∃ keyStatus evidence,
        q'.keyStatus = some keyStatus ∧ q'.evidence = some evidence ∧ MadeFrom input keyStatus evidence claims)
      (fun _ _ => True) := by
  apply Keeps.bind
  refine Keeps.perform ⟨input, hq, rfl, rfl⟩ (fun keyStatus _ => ?_) (fun _ _ => trivial)
  apply Keeps.bind
  refine Keeps.mono (readRequest_calls hq) ?_ (fun _ _ _ => trivial)
  rintro evidence q' rfl
  split
  · exact Keeps.throw trivial
  · rename_i status r hready
    obtain ⟨⟨hk, hs⟩, hr, hc⟩ := assertReady_ok_iff.mp hready
    apply Keeps.bind
    refine Keeps.perform trivial (fun checkedAt _ => ?_) (fun _ _ => trivial)
    apply Keeps.bind
    refine Keeps.perform trivial (fun manualEntries _ => ?_) (fun _ _ => trivial)
    apply Keeps.bind
    refine Keeps.perform trivial (fun issuedAt _ => ?_) (fun _ _ => trivial)
    apply Keeps.bind
    refine Keeps.neutral ((getKeyFingerprint_keyWork k).mono neutral_of_keyWork) (fun keyFingerprint => ?_)
      (fun _ => trivial)
    exact Keeps.pure ⟨hq, keyStatus, evidence, rfl, rfl, status, r, hk, hs, hr, hc, manualEntries, keyFingerprint,
      checkedAt, issuedAt, rfl⟩

lemma signClaims_calls {body : DestructionCertificateClaims} (hq : q.request = some (.signClaims body)) :
    calls.Keeps q (signClaims body) (fun certificate q' => q'.request = some (.signClaims certificate.payload))
      (fun _ _ => True) := by
  apply Keeps.bind
  refine Keeps.neutral (getCurrentSigningKeyVersion_keyWork.mono neutral_of_keyWork) (fun keyVersionPath => ?_)
    (fun _ => trivial)
  apply Keeps.bind
  exact Keeps.perform trivial (fun signature _ => Keeps.pure hq) (fun _ _ => trivial)

lemma serve_calls {request : Request} (hq : q.request = some request) :
    calls.Keeps q (serve k request) (fun _ _ => True) (fun _ _ => True) := by
  cases request with
  | generateClaims input =>
    apply Keeps.bind
    refine Keeps.mono (generateClaims_calls hq) ?_ (fun _ _ _ => trivial)
    rintro claims q' ⟨hq', keyStatus, evidence, hk, he, hm⟩
    exact Keeps.perform ⟨input, keyStatus, evidence, hq', hk, he, hm⟩ (fun _ _ => trivial) (fun _ _ => trivial)
  | signClaims body =>
    apply Keeps.bind
    refine Keeps.mono (signClaims_calls hq) (fun certificate q' hq' => ?_) (fun _ _ _ => trivial)
    exact Keeps.perform hq' (fun _ _ => trivial) (fun _ _ => trivial)
  | invalidateSigningKeyCache =>
    apply Keeps.bind
    refine Keeps.perform trivial (fun _ _ => ?_) (fun _ _ => trivial)
    exact Keeps.perform trivial (fun _ _ => trivial) (fun _ _ => trivial)

lemma handleRequest_calls (request : Request) :
    calls.Keeps q (handleRequest k request) (fun _ _ => True) (fun _ _ => True) := by
  apply Keeps.bind
  refine Keeps.perform trivial (fun authorized _ => ?_) (fun _ _ => trivial)
  cases authorized with
  | true =>
    apply Keeps.tryCatch
    refine Keeps.mono (serve_calls rfl) (fun _ _ h => h) (fun err q' _ => ?_)
    exact Keeps.perform trivial (fun _ _ => trivial) (fun _ _ => trivial)
  | false => exact Keeps.perform trivial (fun _ _ => trivial) (fun _ _ => trivial)

lemma calls_governs (k : Digests) : Governs (S := signer k) calls (fun _ => True) where
  body request := Follows.bind (Follows.mono (handleRequest_calls request) (fun _ _ _ => trivial))
  exec _ _ := ⟨trivial, trivial⟩
  env _ _ := trivial

end Follows

section Stores

def stored (w : World) : (signer k).Log → World
  | [] => w
  | .env w' :: _ => w'
  | .act _ :: log => stored w log

def answers : (signer k).Log → List Claims
  | [] => []
  | .act ⟨_, .sendJson _ (.claims claims), _, _⟩ :: log => claims :: answers log
  | _ :: log => answers log

def issued : (signer k).Entry → Option SignedCertificate
  | .act ⟨_, .sendJson 200 (.certificate certificate _), _, _⟩ => some certificate
  | _ => none

/-- The caller asks for a signature only on claims that it was answered, with its chain fields. -/
def signsAnswers : (signer k).Guard := fun _ log e =>
  (match e with
  | .act ⟨_, .verify (.signClaims body), _, .ok true⟩ => decide (body.claims ∈ answers log)
  | _ => true) = true

instance : ∀ s log e, Decidable (@signsAnswers k s log e) := fun _ _ _ => inferInstanceAs (Decidable (_ = true))

/-- The claims are made from a key that was stored as shredded and a request that was stored as
complete, each when the signer read it. -/
def Verified (w : World) (log : (signer k).Log) (claims : Claims) : Prop :=
  ∃ input log₁ log₂, log₁ <:+ log ∧ log₂ <:+ log ∧
    MadeFrom input ((stored w log₁).getKeyStatus input.userId input.tenant) (requestRead input (stored w log₂)) claims

lemma Verified.later {e : (signer k).Entry} (h : Verified w log claims) : Verified w (e :: log) claims := by
  obtain ⟨input, log₁, log₂, h₁, h₂, hm⟩ := h
  exact ⟨input, log₁, log₂, h₁.trans (List.suffix_cons e log), h₂.trans (List.suffix_cons e log), hm⟩

structure Told (w : World) (s : State) (log : (signer k).Log) : Prop where
  stores : s.stores = stored w log
  keyStatus (t : ℕ) (input : GenerateClaimsInput) (keyStatus : Option KeyStatus) :
    (calls.known t log).request = some (.generateClaims input) → (calls.known t log).keyStatus = some keyStatus →
      ∃ log₁, log₁ <:+ log ∧ (stored w log₁).getKeyStatus input.userId input.tenant = keyStatus
  evidence (t : ℕ) (input : GenerateClaimsInput) (evidence : Option DeletionRequest) :
    (calls.known t log).request = some (.generateClaims input) → (calls.known t log).evidence = some evidence →
      ∃ log₁, log₁ <:+ log ∧ requestRead input (stored w log₁) = evidence
  accepted (t : ℕ) (body : DestructionCertificateClaims) :
    (calls.known t log).request = some (.signClaims body) → body.claims ∈ answers log
  answered (claims : Claims) : claims ∈ answers log → Verified w log claims

variable {guard : (signer k).Guard}

lemma exec_reads (ha : Allowed calls (fun _ => True) guard s log a s') :
    (readsOf s.stores).possible a.op a.reply ∧ s'.stores = s.stores :=
  exec_readsOf a.op a.choice s a.reply s' rfl ha.exec

lemma known_keyStatus (ha : Allowed calls (fun _ => True) guard s log a s') {keyStatus : Option KeyStatus}
    (hr : (calls.known t (.act a :: log)).request = some (.generateClaims input))
    (hk : (calls.known t (.act a :: log)).keyStatus = some keyStatus) :
    ((calls.known t log).request = some (.generateClaims input) ∧ (calls.known t log).keyStatus = some keyStatus) ∨
      s.stores.getKeyStatus input.userId input.tenant = keyStatus := by
  by_cases ht : a.tid = t
  · subst ht
    have hread := (exec_reads ha).1
    have hallowed := ha.allowed
    rw [known_act_self] at hr hk
    obtain ⟨t, op, choice, reply⟩ := a
    cases op
    case verify request => rcases reply with e | (_ | _) <;> first | exact .inl ⟨hr, hk⟩ | contradiction
    case getKeyStatus userId tenantId =>
      cases reply with
      | error e => exact .inl ⟨hr, hk⟩
      | ok result =>
        obtain ⟨input', hr', rfl, rfl⟩ := hallowed
        obtain rfl := Request.generateClaims.inj (Option.some.inj (hr'.symm.trans hr))
        obtain rfl := Option.some.inj hk
        exact .inr hread.symm
    all_goals cases reply <;> exact .inl ⟨hr, hk⟩
  · rw [known_act_ne ht] at hr hk
    exact .inl ⟨hr, hk⟩

lemma known_evidence (ha : Allowed calls (fun _ => True) guard s log a s') {evidence : Option DeletionRequest}
    (hr : (calls.known t (.act a :: log)).request = some (.generateClaims input))
    (he : (calls.known t (.act a :: log)).evidence = some evidence) :
    ((calls.known t log).request = some (.generateClaims input) ∧ (calls.known t log).evidence = some evidence) ∨
      requestRead input s.stores = evidence := by
  by_cases ht : a.tid = t
  · subst ht
    have hread := (exec_reads ha).1
    have hallowed := ha.allowed
    rw [known_act_self] at hr he
    obtain ⟨t, op, choice, reply⟩ := a
    cases op
    case verify request => rcases reply with e | (_ | _) <;> first | exact .inl ⟨hr, he⟩ | contradiction
    case getDeletionRequest id =>
      cases reply with
      | error e => exact .inl ⟨hr, he⟩
      | ok result =>
        obtain ⟨input', hr', hid⟩ := hallowed
        obtain rfl := Request.generateClaims.inj (Option.some.inj (hr'.symm.trans hr))
        obtain rfl := Option.some.inj he
        have hreq : requestRead input' s.stores = s.stores.deletionRequests.lookup id := by
          simp only [requestRead, hid]
        exact .inr (hreq.trans hread.symm)
    case getLatestCompletedDeletionRequestForUser userId tenantId =>
      cases reply with
      | error e => exact .inl ⟨hr, he⟩
      | ok result =>
        obtain ⟨input', hr', hid, rfl, rfl⟩ := hallowed
        obtain rfl := Request.generateClaims.inj (Option.some.inj (hr'.symm.trans hr))
        obtain rfl := Option.some.inj he
        have hreq : requestRead input' s.stores =
            getLatestCompletedDeletionRequestForUser input'.userId input'.tenant s.stores := by
          simp only [requestRead, hid]
        exact .inr (hreq.trans hread.symm)
    all_goals cases reply <;> exact .inl ⟨hr, he⟩
  · rw [known_act_ne ht] at hr he
    exact .inl ⟨hr, he⟩

lemma known_accepted {body : DestructionCertificateClaims} (hg : signsAnswers s log (.act a))
    (hr : (calls.known t (.act a :: log)).request = some (.signClaims body)) :
    (calls.known t log).request = some (.signClaims body) ∨ body.claims ∈ answers log := by
  by_cases ht : a.tid = t
  · subst ht
    rw [known_act_self] at hr
    obtain ⟨t, op, choice, reply⟩ := a
    cases op
    case verify request =>
      rcases reply with e | (_ | _)
      · exact .inl hr
      · exact .inl hr
      · obtain rfl : request = .signClaims body := Option.some.inj hr
        exact .inr (by simpa [signsAnswers] using hg)
    all_goals cases reply <;> exact .inl hr
  · rw [known_act_ne ht] at hr
    exact .inl hr

lemma mem_answers_act (h : claims ∈ answers (.act a :: log)) :
    claims ∈ answers log ∨ ∃ status, a.op = .sendJson status (.claims claims) := by
  obtain ⟨t, op, choice, reply⟩ := a
  cases op
  case sendJson status body =>
    cases body with
    | claims claims' =>
      rcases List.mem_cons.mp h with rfl | h
      · exact .inr ⟨status, rfl⟩
      · exact .inl h
    | _ => exact .inl h
  all_goals exact .inl h

lemma answers_subset (e : (signer k).Entry) : answers log ⊆ answers (e :: log) := by
  intro claims h
  rcases e with ⟨t, op, choice, reply⟩ | w
  · cases op
    case sendJson status body =>
      cases body with
      | claims claims' => exact List.mem_cons_of_mem claims' h
      | _ => exact h
    all_goals exact h
  · exact h

lemma Told.act (h : Told w s log) (ha : Allowed calls (fun _ => True) signsAnswers s log a s') :
    Told w s' (.act a :: log) where
  stores := by rw [(exec_reads ha).2, h.stores, stored]
  keyStatus t input keyStatus hr hk := by
    rcases known_keyStatus ha hr hk with ⟨hr, hk⟩ | hk
    · obtain ⟨log₁, hl, hs⟩ := h.keyStatus t input keyStatus hr hk
      exact ⟨log₁, hl.trans (List.suffix_cons _ _), hs⟩
    · exact ⟨log, List.suffix_cons _ _, by rw [← h.stores, hk]⟩
  evidence t input evidence hr he := by
    rcases known_evidence ha hr he with ⟨hr, he⟩ | he
    · obtain ⟨log₁, hl, hs⟩ := h.evidence t input evidence hr he
      exact ⟨log₁, hl.trans (List.suffix_cons _ _), hs⟩
    · exact ⟨log, List.suffix_cons _ _, by rw [← h.stores, he]⟩
  accepted t body hr := by
    rcases known_accepted ha.guard hr with hr | hm
    · exact answers_subset _ (h.accepted t body hr)
    · exact answers_subset _ hm
  answered claims hm := by
    rcases mem_answers_act hm with hm | ⟨status, hop⟩
    · exact (h.answered claims hm).later
    · have hallowed := ha.allowed
      rw [hop] at hallowed
      obtain ⟨input, keyStatus, evidence, hr, hk, he, hmade⟩ := hallowed
      obtain ⟨log₁, h₁, rfl⟩ := h.keyStatus a.tid input keyStatus hr hk
      obtain ⟨log₂, h₂, rfl⟩ := h.evidence a.tid input evidence hr he
      exact Verified.later ⟨input, log₁, log₂, h₁, h₂, hmade⟩

lemma told_inductive : Inductive calls (fun _ => True) (@signsAnswers k) (Told w) where
  act h ha := h.act ha
  env {s s' log e} h _ he _ := by
    obtain rfl := Option.some.inj he
    refine ⟨rfl, fun t input keyStatus hr hk => ?_, fun t input evidence hr hv => ?_, fun t body hr => h.accepted t body hr,
      fun claims hm => (h.answered claims hm).later⟩
    · obtain ⟨log₁, hl, hs⟩ := h.keyStatus t input keyStatus hr hk
      exact ⟨log₁, hl.trans (List.suffix_cons _ _), hs⟩
    · obtain ⟨log₁, hl, hs⟩ := h.evidence t input evidence hr hv
      exact ⟨log₁, hl.trans (List.suffix_cons _ _), hs⟩

lemma request_of_issued {q : Knowledge} {certificate : SignedCertificate} (h : calls.allowed q a.op)
    (ha : issued (.act a) = some certificate) : q.request = some (.signClaims certificate.payload) := by
  obtain ⟨t, op, choice, reply⟩ := a
  simp only [issued] at ha
  split at ha
  · rename_i heq
    obtain rfl := Option.some.inj ha
    cases heq
    exact h
  · contradiction

theorem signed_claims_are_verified {c c' : (signer k).Config} (hr : Reachable signsAnswers (initial s) c)
    (hp : Performs signsAnswers c a c') {certificate : SignedCertificate} (ha : issued (.act a) = some certificate) :
    certificate.payload.claims ∈ answers c.log ∧ Verified s.stores c.log certificate.payload.claims := by
  have hinit : Told s.stores (initial s : (signer k).Config).state (initial s : (signer k).Config).log := by
    refine ⟨rfl, fun t input keyStatus hr => ?_, fun t input evidence hr => ?_, fun t body hr => ?_, nofun⟩
    all_goals contradiction
  have hconf : Conforms calls (fun _ => True) (initial s : (signer k).Config) := conforms_initial trivial
  have htold := told_inductive.run (calls_governs k) hconf hinit hr
  have hallowed := ((hconf.reachable (calls_governs k) hr).allowed_of_performs (calls_governs k) hp).allowed
  have hm := htold.accepted a.tid certificate.payload (request_of_issued hallowed ha)
  exact ⟨hm, htold.answered _ hm⟩

end Stores

section Runs

abbrev SignerEvent := (signer plainDigests).Event

def adaShredded : World :=
  { emptyVault 10 with
    keyRegistry := (∅ : AList (fun _ : String => KeyRegistry.KeyMetadata)).insert "acme:ada" { status := .shredded }
    deletionRequests := (∅ : AList (fun _ : String => DeletionRequest)).insert "request"
      { DeletionRequest.new "ada" "request" "acme" none 0 with status := .cascadeComplete } }

def adasInput : GenerateClaimsInput := { foreignInput with deletionRequestId := none }

def adasClaims : Claims :=
  claimsFor "ada" "acme" { DeletionRequest.new "ada" "request" "acme" none 0 with status := .cascadeComplete }
    ⟨.shredded, 10, none, none, none, none⟩ [] [] registeredConnectors "sha256:pem" 10 10

def adasBody : DestructionCertificateClaims := ⟨adasClaims, none, some 1⟩

def noCaches : State := { stores := emptyVault 0 }

def quiet (t n : ℕ) : List SignerEvent := List.replicate n (.act t .done)

def claimsAnswered : List SignerEvent :=
  [.start (.generateClaims adasInput), .env adaShredded] ++ quiet 0 7
    ++ [.act 0 (.text "version")] ++ quiet 0 2 ++ [.act 0 (.text "pem")] ++ quiet 0 2

theorem signed_claims_are_verified_answered :
    ∃ (c : (signer plainDigests).Config) (a : (signer plainDigests).Action) (c' : (signer plainDigests).Config),
      Reachable signsAnswers (initial noCaches) c ∧ Performs signsAnswers c a c' ∧
      issued (.act a) = some ⟨adasBody, "version", "signature"⟩ ∧
      adasBody.claims ∈ answers c.log ∧ Verified (emptyVault 0) c.log adasBody.claims := by
  have h : ∃ (c : (signer plainDigests).Config) (a : (signer plainDigests).Action)
      (c' : (signer plainDigests).Config), Reachable signsAnswers (initial noCaches) c ∧
      Performs signsAnswers c a c' ∧ issued (.act a) = some ⟨adasBody, "version", "signature"⟩ :=
    exists_performs (claimsAnswered ++ [.start (.signClaims adasBody)] ++ quiet 1 2 ++ [.act 1 (.text "signature")])
      1 Answer.done _ (by decide +kernel)
  obtain ⟨c, a, c', hr, hp, ha⟩ := h
  exact ⟨c, a, c', hr, hp, ha, signed_claims_are_verified hr hp ha⟩

/-- No key is shredded and no request is stored: the caller makes the claims up. -/
def forged : List SignerEvent :=
  [.start (.signClaims adasBody)] ++ quiet 0 2 ++ [.act 0 (.text "version")] ++ quiet 0 1
    ++ [.act 0 (.text "signature")]

theorem forged_claims_are_signed :
    ∃ (c : (signer plainDigests).Config) (a : (signer plainDigests).Action) (c' : (signer plainDigests).Config),
      Reachable free (initial noCaches) c ∧ Performs free c a c' ∧
      issued (.act a) = some ⟨adasBody, "version", "signature"⟩ ∧ answers c.log = [] ∧
      adasBody.claims.sub = "ada" ∧ adasBody.claims.keyDestructionStatus = "COMPLETE" :=
  exists_performs forged 0 Answer.done _ (by decide +kernel)

end Runs

end ChameleonVault.Signer
