import ChameleonVault.ScopedAccess.Service

/-! Each caller generates at most one secret and stores its hash at most once, so what a record
says can be traced to the caller that wrote it. -/

namespace ChameleonVault.ScopedAccess

open Concurrency Interleaving Discipline
open KeyRegistry (Date)

section Knowledge

structure Knowledge where
  looked : Option (String × AnalystAccess) := none
  now : Option Date := none
  secret : Option String := none
  used : Bool := false
  issued : Bool := false

/-- A record as it is first written: unclaimed, or claimed already under its own id. -/
def Minted (id : String) (record : AnalystAccess) : Prop :=
  record.revokedAt = none ∧ (record.credentialKeyHash = none ∧ record.claimedAt = none ∨
    record.credentialKeyHash = some id ∧ record.claimedAt.isSome = true)

variable (hash : String → String)

def Knowledge.Permits (q : Knowledge) : Op → Prop
  | .generateSecret => q.secret = none
  | .get _ => q.secret = none
  | .set id record => ∃ secret, q.secret = some secret ∧ q.used = false ∧ q.looked = none ∧ id = hash secret ∧
      Minted id record
  | .claimAndIssueCredential id keyHash => ∃ secret record now, q.secret = some secret ∧ q.used = false ∧
      q.looked = some (id, record) ∧ keyHash = hash secret ∧ q.now = some now ∧ now ≤ record.expiresAt
  | .send (.claimed claimToken (some claimed)) => q.issued = true ∧ q.secret = some claimed.apiKey ∧
      ∃ record, q.looked = some (hash claimToken, record)
  | _ => True

def Knowledge.next (q : Knowledge) : (op : Op) → Except String op.Res → Knowledge
  | .generateSecret, .ok secret => { q with secret := some secret }
  | .dateNow, .ok now => { q with now := some now }
  | .get id, .ok (some record) => { q with looked := some (id, record) }
  | .set _ _, _ => { q with used := true }
  | .claimAndIssueCredential _ _, .ok (some _) => { q with used := true, issued := true }
  | .claimAndIssueCredential _ _, _ => { q with used := true }
  | _, _ => q

def secretKeeping : Discipline Op (fun op => Except String op.Res) Knowledge where
  start := {}
  allowed := Knowledge.Permits hash
  next := Knowledge.next
  possible _ _ := True

end Knowledge

section Programs

variable {hash : String → String} {q : Knowledge}

lemma createClaim_keeps (tenantId analystEmail : String) (role : Role) :
    (secretKeeping hash).Keeps {} (createClaim hash tenantId analystEmail role) (fun _ _ => True) (fun _ _ => True) := by
  refine Keeps.bind (Keeps.perform rfl (fun secret _ => ?_) fun _ _ => trivial)
  refine Keeps.bind (Keeps.perform trivial (fun now _ => ?_) fun _ _ => trivial)
  refine Keeps.bind (Keeps.perform trivial (fun createdAt _ => ?_) fun _ _ => trivial)
  refine Keeps.bind (Keeps.perform ⟨secret, rfl, rfl, rfl, rfl, rfl, .inl ⟨rfl, rfl⟩⟩ (fun _ _ => ?_) fun _ _ => trivial)
  exact Keeps.pure trivial

lemma mintSessionCredential_keeps (tenantId analystEmail : String) :
    (secretKeeping hash).Keeps {} (mintSessionCredential hash tenantId analystEmail) (fun _ _ => True)
      (fun _ _ => True) := by
  refine Keeps.bind (Keeps.perform rfl (fun secret _ => ?_) fun _ _ => trivial)
  refine Keeps.bind (Keeps.perform trivial (fun now _ => ?_) fun _ _ => trivial)
  refine Keeps.bind (Keeps.perform trivial (fun createdAt _ => ?_) fun _ _ => trivial)
  refine Keeps.bind (Keeps.perform ⟨secret, rfl, rfl, rfl, rfl, rfl, .inr ⟨rfl, rfl⟩⟩ (fun _ _ => ?_) fun _ _ => trivial)
  exact Keeps.pure trivial

lemma mintServiceCredential_keeps (tenantId callerName : String) :
    (secretKeeping hash).Keeps {} (mintServiceCredential hash tenantId callerName) (fun _ _ => True)
      (fun _ _ => True) := by
  refine Keeps.bind (Keeps.perform rfl (fun secret _ => ?_) fun _ _ => trivial)
  refine Keeps.bind (Keeps.perform trivial (fun createdAt _ => ?_) fun _ _ => trivial)
  refine Keeps.bind (Keeps.perform ⟨secret, rfl, rfl, rfl, rfl, rfl, .inr ⟨rfl, rfl⟩⟩ (fun _ _ => ?_) fun _ _ => trivial)
  exact Keeps.pure trivial

/-- What the caller of a claim may be told. -/
def Claimed (hash : String → String) (claimToken : String) (q : Knowledge) : Option ClaimedCredential → Prop
  | some claimed => q.issued = true ∧ q.secret = some claimed.apiKey ∧ ∃ record, q.looked = some (hash claimToken, record)
  | none => True

lemma claim_keeps (claimToken : String) :
    (secretKeeping hash).Keeps {} (claim hash claimToken) (fun claimed q => Claimed hash claimToken q claimed)
      (fun _ _ => True) := by
  refine Keeps.bind (Keeps.perform rfl (fun record _ => ?_) fun _ _ => trivial)
  cases record with
  | none => exact Keeps.pure trivial
  | some record =>
    simp only
    split
    · exact Keeps.pure trivial
    · refine Keeps.bind (Keeps.perform trivial (fun (now : Date) _ => ?_) fun _ _ => trivial)
      split
      · exact Keeps.pure trivial
      · rename_i hexpired
        refine Keeps.bind (Keeps.perform rfl (fun apiKey _ => ?_) fun _ _ => trivial)
        have hnow : now ≤ record.expiresAt := Nat.le_of_not_lt hexpired
        refine Keeps.bind (Keeps.perform ⟨apiKey, record, now, rfl, rfl, rfl, rfl, rfl, hnow⟩ (fun claimed _ => ?_)
          fun _ _ => trivial)
        cases claimed with
        | none => exact Keeps.pure trivial
        | some _ => exact Keeps.pure ⟨rfl, rfl, record, rfl⟩

abbrev Always (op : Op) : Prop := ∀ q, (secretKeeping hash).allowed q op

lemma uses_revokeAll (revokedAt : Date) (ids : List String) : (revokeAll revokedAt ids).run.Uses (@Always hash) := by
  induction ids with
  | nil => exact Call.uses_pure _
  | cons id ids ih => exact .awaitAll (Call.uses_perform fun _ => trivial) ih (fun _ _ => trivial) (fun _ => trivial)

lemma uses_revokeServiceCredentials (tenantId callerName : String) :
    (revokeServiceCredentials tenantId callerName).run.Uses (@Always hash) := by
  refine Call.uses_bind (Call.uses_perform fun _ => trivial) fun snapshot => ?_
  refine Call.uses_bind (Call.uses_perform fun _ => trivial) fun now => ?_
  exact Call.uses_bind (uses_revokeAll now _) fun _ => Call.uses_pure _

lemma uses_resolveCredential (key : String) : (resolveCredential hash key).run.Uses (@Always hash) := by
  refine Call.uses_bind (Call.uses_perform fun _ => trivial) fun record => ?_
  cases record with
  | none => exact Call.uses_pure _
  | some record =>
    simp only
    split
    · exact Call.uses_pure _
    · split
      · exact Call.uses_pure _
      · refine Call.uses_bind (Call.uses_perform fun _ => trivial) fun now => ?_
        split <;> exact Call.uses_pure _

lemma uses_resolveAuth (request : AuthRequest) : (resolveAuth hash request).run.Uses (@Always hash) := by
  unfold resolveAuth
  split
  · exact Call.uses_pure _
  · split
    · exact Call.uses_pure _
    · split
      · refine Call.uses_bind (uses_resolveCredential _) fun identity => ?_
        cases identity with
        | none => exact Call.uses_pure _
        | some identity =>
          simp only
          split <;> exact Call.uses_pure _
      · exact Call.uses_pure _

lemma reply_keeps (job : Job) : (secretKeeping hash).Keeps {} (job.reply hash)
    (fun reply q => q.Permits hash (.send reply)) (fun _ _ => True) := by
  have trivially {α : Type} {x : Service α} {f : α → Reply} (hf : ∀ a q, Knowledge.Permits hash q (.send (f a)))
      (h : (secretKeeping hash).Keeps {} x (fun _ _ => True) (fun _ _ => True)) :
      (secretKeeping hash).Keeps {} (f <$> x) (fun reply q => q.Permits hash (.send reply)) (fun _ _ => True) :=
    Keeps.bind (Keeps.mono h (fun a q _ => Keeps.pure (hf a q)) fun _ _ _ => trivial)
  have always {α : Type} {x : Service α} (h : x.run.Uses (@Always hash)) :
      (secretKeeping hash).Keeps {} x (fun _ _ => True) (fun _ _ => True) :=
    Follows.mono (Follows.of_always h) (fun r _ _ => by cases r <;> trivial)
  cases job with
  | createClaim tenantId analystEmail role =>
    exact trivially (fun _ _ => trivial) (createClaim_keeps tenantId analystEmail role)
  | claim claimToken =>
    refine Keeps.bind (Keeps.mono (claim_keeps claimToken) (fun claimed q hq => Keeps.pure ?_) fun _ _ _ => trivial)
    cases claimed with
    | none => trivial
    | some claimed => exact hq
  | mintSessionCredential tenantId email =>
    exact trivially (fun _ _ => trivial) (mintSessionCredential_keeps tenantId email)
  | mintServiceCredential tenantId name =>
    exact trivially (fun _ _ => trivial) (mintServiceCredential_keeps tenantId name)
  | revokeServiceCredentials tenantId name =>
    exact trivially (fun _ _ => trivial) (always (uses_revokeServiceCredentials tenantId name))
  | resolveAuth request => exact trivially (fun _ _ => trivial) (always (uses_resolveAuth request))

lemma secretKeeping_governs (hash : String → String) :
    Governs (S := accessRecords hash) (secretKeeping hash) (fun _ => True) := by
  refine ⟨fun job => ?_, fun _ _ => ⟨trivial, trivial⟩, fun _ _ => trivial⟩
  have hhandle : (secretKeeping hash).Keeps {} (handle hash job) (fun _ _ => True) (fun _ _ => True) := by
    refine Keeps.bind (Keeps.mono (reply_keeps job) (fun reply q hq => ?_) fun _ _ _ => trivial)
    exact Keeps.perform hq (fun _ _ => trivial) fun _ _ => trivial
  exact Follows.bind (Follows.mono hhandle fun _ _ _ => trivial)

end Programs

end ChameleonVault.ScopedAccess
