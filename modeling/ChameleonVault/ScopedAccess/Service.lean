import ChameleonVault.Concurrency.Invariants
import ChameleonVault.ScopedAccess.Records
import Mathlib.Data.List.AList

/-! Claim links and credentials, as programs over single operations on the access records. -/

namespace ChameleonVault.ScopedAccess

open Concurrency
open KeyRegistry (Date truthy)

section Operations

structure ClaimedCredential where
  apiKey : String
  analystEmail : String
  role : Role
  deriving DecidableEq

structure AuthResult where
  authorized : Bool
  analystEmail : Option String := none
  role : Option Role := none
  tenantId : Option String := none
  credentialKind : Option Kind := none
  deriving DecidableEq

structure AuthRequest where
  path : String
  providedKey : Option String
  sharedApiKey : String
  requestTenantId : String
  deriving DecidableEq

inductive Reply where
  | claimToken (claimToken : String)
  | claimed (claimToken : String) (result : Option ClaimedCredential)
  | credential (credential : String)
  | revoked (revokedCount : ℕ)
  | auth (request : AuthRequest) (result : AuthResult)
  deriving DecidableEq

inductive Op where
  | generateSecret
  | dateNow
  | set (id : String) (record : AnalystAccess)
  | get (id : String)
  | claimAndIssueCredential (id credentialKeyHash : String)
  | resolveCredential (credentialKeyHash : String)
  | serviceCredentialsOf (tenantId callerName : String)
  | revoke (id : String) (revokedAt : Date)
  | send (reply : Reply)

def Op.Res : Op → Type
  | .generateSecret => String
  | .dateNow => Date
  | .get _ => Option AnalystAccess
  | .claimAndIssueCredential _ _ => Option AnalystAccess
  | .resolveCredential _ => Option AnalystAccess
  | .serviceCredentialsOf _ _ => List (String × AnalystAccess)
  | _ => Unit

/-- A failing write may have reached the document before the caller saw the error. -/
inductive Outcome where
  | done
  | secret (value : String)
  | found (id : String)
  | fail (committed : Bool)
  deriving DecidableEq

abbrev Docs := AList (fun _ : String => AnalystAccess)

structure State where
  clock : Date
  docs : Docs

def claimable (docs : Docs) (id : String) : Option AnalystAccess :=
  match docs.lookup id with
  | some record => if record.claimedAt.isSome then none else some record
  | none => none

def hasKeyHash (credentialKeyHash : String) (record : AnalystAccess) : Bool :=
  record.credentialKeyHash == some credentialKeyHash

def isServiceOf (tenantId callerName : String) (record : AnalystAccess) : Bool :=
  record.tenantId == tenantId && record.analystEmail == callerName && record.kind == some .service

def State.put (s : State) (id : String) (record : AnalystAccess) : State :=
  { s with docs := s.docs.insert id record }

def unavailable : String := "UNAVAILABLE"

def Op.exec : (op : Op) → Outcome → State → Option (Except String op.Res × State)
  | .generateSecret, .secret value, s => if value = "" then none else some (.ok value, s)
  | .dateNow, .done, s => some (.ok s.clock, s)
  | .set id record, .done, s => some (.ok (), s.put id record)
  | .set id record, .fail true, s => some (.error unavailable, s.put id record)
  | .get id, .done, s => some (.ok (s.docs.lookup id), s)
  | .claimAndIssueCredential id keyHash, .done, s =>
    match claimable s.docs id with
    | some record => some (.ok (some (record.issue s.clock keyHash)), s.put id (record.issue s.clock keyHash))
    | none => some (.ok none, s)
  | .claimAndIssueCredential id keyHash, .fail true, s =>
    (claimable s.docs id).map fun record => (.error unavailable, s.put id (record.issue s.clock keyHash))
  | .resolveCredential keyHash, .found id, s =>
    ((s.docs.lookup id).filter (hasKeyHash keyHash)).map fun record => (.ok (some record), s)
  | .resolveCredential keyHash, .done, s =>
    if s.docs.entries.all fun e => !hasKeyHash keyHash e.2 then some (.ok none, s) else none
  | .serviceCredentialsOf tenantId callerName, .done, s =>
    some (.ok ((s.docs.entries.filter fun e => isServiceOf tenantId callerName e.2).map fun e => (e.1, e.2)), s)
  | .revoke id revokedAt, .done, s =>
    match s.docs.lookup id with
    | some record => some (.ok (), s.put id (record.revoke revokedAt))
    | none => some (.error "NOT_FOUND", s)
  | .revoke id revokedAt, .fail true, s =>
    (s.docs.lookup id).map fun record => (.error unavailable, s.put id (record.revoke revokedAt))
  | .send _, .done, s => some (.ok (), s)
  | .generateSecret, .fail _, _ => none
  | .dateNow, .fail _, _ => none
  | .send _, .fail _, _ => none
  | _, .fail false, s => some (.error unavailable, s)
  | _, _, _ => none

abbrev Service := Call Op Op.Res String

def generateSecret : Service String := perform Op.generateSecret
def dateNow : Service Date := perform Op.dateNow

end Operations

section Programs

def claimExpiryMs : ℕ := 7 * 24 * 60 * 60 * 1000

def sessionCredentialTtlMs : ℕ := 60 * 60 * 1000

/-- 2099-01-01T00:00:00Z -/
def serviceRecordExpiresAt : Date := 4070908800000

variable (hash : String → String)

def createClaim (tenantId analystEmail : String) (role : Role) : Service String := do
  let claimToken ← generateSecret
  let now ← dateNow
  let createdAt ← dateNow
  perform (Op.set (hash claimToken) {
    claimTokenHash := hash claimToken, tenantId, analystEmail, createdAt
    expiresAt := now + claimExpiryMs, role := some role })
  return claimToken

def claim (claimToken : String) : Service (Option ClaimedCredential) := do
  let record ← perform (Op.get (hash claimToken))
  match record with
  | none => return none
  | some record =>
    if record.claimedAt.isSome then return none
    else
      let now ← dateNow
      if record.expiresAt < now then return none
      else
        let apiKey ← generateSecret
        let claimed ← perform (Op.claimAndIssueCredential (hash claimToken) (hash apiKey))
        match claimed with
        | none => return none
        | some _ => return some ⟨apiKey, record.analystEmail, record.role.getD .analyst⟩

def resolveCredential (presentedApiKey : String) : Service (Option ResolvedAnalystIdentity) := do
  let record ← perform (Op.resolveCredential (hash presentedApiKey))
  match record with
  | none => return none
  | some record =>
    if record.revokedAt.isSome then return none
    else match record.credentialExpiresAt with
      | none => return some record.identity
      | some credentialExpiresAt =>
        let now ← dateNow
        if credentialExpiresAt < now then return none else return some record.identity

def mintSessionCredential (tenantId analystEmail : String) : Service String := do
  let credential ← generateSecret
  let now ← dateNow
  let createdAt ← dateNow
  perform (Op.set (hash credential) {
    claimTokenHash := hash credential, credentialKeyHash := some (hash credential), tenantId, analystEmail, createdAt
    expiresAt := now + sessionCredentialTtlMs, claimedAt := some createdAt, source := some .consoleSession
    credentialExpiresAt := some (now + sessionCredentialTtlMs) })
  return credential

def mintServiceCredential (tenantId callerName : String) : Service String := do
  let credential ← generateSecret
  let createdAt ← dateNow
  perform (Op.set (hash credential) {
    claimTokenHash := hash credential, credentialKeyHash := some (hash credential), tenantId
    analystEmail := callerName, createdAt, expiresAt := serviceRecordExpiresAt, claimedAt := some createdAt
    source := some .consoleSession, kind := some .service })
  return credential

/-- The updates are issued together; the first that fails is the result. -/
def revokeAll (revokedAt : Date) : List String → Service Unit
  | [] => return ()
  | id :: ids => ExceptT.mk (Prog.awaitAll (fun _ _ => .done (.ok ())) (fun e => .done (.error e))
      (perform (Op.revoke id revokedAt) : Service Unit).run (revokeAll revokedAt ids).run)

def revokeServiceCredentials (tenantId callerName : String) : Service ℕ := do
  let snapshot ← perform (Op.serviceCredentialsOf tenantId callerName)
  let now ← dateNow
  let toRevoke := snapshot.filter fun doc => !doc.2.revokedAt.isSome
  revokeAll now (toRevoke.map Prod.fst)
  return toRevoke.length

def resolveAuth (request : AuthRequest) : Service AuthResult :=
  if request.providedKey = some request.sharedApiKey then return { authorized := true }
  else match truthy request.providedKey with
    | none => return { authorized := false }
    | some providedKey =>
      if isCredentialPath request.path then do
        let identity ← resolveCredential hash providedKey
        match identity with
        | none => return { authorized := false }
        | some identity =>
          if identity.tenantId = request.requestTenantId ∧ isAllowedForCredential identity request.path then
            return {
              authorized := true, analystEmail := some identity.analystEmail, role := some identity.role
              tenantId := some identity.tenantId
              credentialKind := if identity.kind = some .service then some .service else none }
          else return { authorized := false }
      else return { authorized := false }

inductive Job where
  | createClaim (tenantId analystEmail : String) (role : Role)
  | claim (claimToken : String)
  | mintSessionCredential (tenantId analystEmail : String)
  | mintServiceCredential (tenantId callerName : String)
  | revokeServiceCredentials (tenantId callerName : String)
  | resolveAuth (request : AuthRequest)

def Job.reply : Job → Service Reply
  | .createClaim tenantId analystEmail role => Reply.claimToken <$> ScopedAccess.createClaim hash tenantId analystEmail role
  | .claim claimToken => Reply.claimed claimToken <$> ScopedAccess.claim hash claimToken
  | .mintSessionCredential tenantId email => Reply.credential <$> ScopedAccess.mintSessionCredential hash tenantId email
  | .mintServiceCredential tenantId name => Reply.credential <$> ScopedAccess.mintServiceCredential hash tenantId name
  | .revokeServiceCredentials tenantId name => Reply.revoked <$> ScopedAccess.revokeServiceCredentials tenantId name
  | .resolveAuth request => Reply.auth request <$> ScopedAccess.resolveAuth hash request

def handle (job : Job) : Service Unit := do
  let reply ← job.reply hash
  perform (Op.send reply)

abbrev accessRecords : Interleaving where
  State := State
  Op := Op
  Ret := fun op => Except String op.Res
  Choice := Outcome
  Env := ℕ
  Job := Job
  exec := Op.exec
  env := fun n s => some { s with clock := s.clock + n }
  body := fun job => (handle hash job).run.bind fun _ => .done ()
  forks := fun _ _ => []
  client := fun _ => true

end Programs

section Changes

inductive Change where
  | write (id : String) (record : AnalystAccess)
  | issue (id credentialKeyHash : String)
  | revoke (id : String) (revokedAt : Date)
  deriving DecidableEq

variable {hash : String → String}

def Op.change : Op → Option Change
  | .set id record => some (.write id record)
  | .claimAndIssueCredential id keyHash => some (.issue id keyHash)
  | .revoke id revokedAt => some (.revoke id revokedAt)
  | _ => none

def commits : (op : Op) → Outcome → Except String op.Res → Bool
  | .claimAndIssueCredential _ _, .done, .ok claimed => claimed.isSome
  | _, .done, .ok _ => true
  | _, .fail committed, _ => committed
  | _, _, _ => false

def change : (accessRecords hash).Entry → Option Change
  | .act ⟨_, op, choice, reply⟩ => if commits op choice reply then op.change else none
  | .env _ => none

inductive Changes (s : State) : Option Change → State → Prop
  | same : Changes s none s
  | write (id : String) (record : AnalystAccess) : Changes s (some (.write id record)) (s.put id record)
  | issue (id keyHash : String) (record : AnalystAccess) : s.docs.lookup id = some record → record.claimedAt = none →
      Changes s (some (.issue id keyHash)) (s.put id (record.issue s.clock keyHash))
  | revoke (id : String) (revokedAt : Date) (record : AnalystAccess) : s.docs.lookup id = some record →
      Changes s (some (.revoke id revokedAt)) (s.put id (record.revoke revokedAt))

def Change.id : Change → String
  | .write id _ => id
  | .issue id _ => id
  | .revoke id _ => id

/-- What a change makes of the record that is already stored under an id. -/
inductive Succeeds (c : Option Change) (id : String) (old : AnalystAccess) : AnalystAccess → Prop
  | same : (∀ change, c = some change → change.id ≠ id) → Succeeds c id old old
  | issue (keyHash : String) (claimedAt : Date) : c = some (.issue id keyHash) → old.claimedAt = none →
      Succeeds c id old (old.issue claimedAt keyHash)
  | revoke (revokedAt : Date) : c = some (.revoke id revokedAt) → Succeeds c id old (old.revoke revokedAt)

variable {s s' : State} {c : Option Change} {id id' : String} {record old : AnalystAccess}

lemma lookup_put_self : (s.put id record).docs.lookup id = some record := AList.lookup_insert _

lemma lookup_put_ne (h : id' ≠ id) : (s.put id record).docs.lookup id' = s.docs.lookup id' := AList.lookup_insert_ne h

lemma Succeeds.other {change : Change} (h : id ≠ change.id) : Succeeds (some change) id old old := by
  refine .same fun change' hc => ?_
  obtain rfl := Option.some.inj hc
  exact Ne.symm h

lemma Changes.clock (h : Changes s c s') : s'.clock = s.clock := by
  cases h <;> rfl

/-- A record once stored stays, and the other records stem from a write. -/
lemma Changes.lookup (h : Changes s c s') (hfresh : ∀ id record, c = some (.write id record) → s.docs.lookup id = none) :
    (∀ old, s.docs.lookup id = some old → ∃ record, s'.docs.lookup id = some record ∧ Succeeds c id old record) ∧
      (s.docs.lookup id = none → ∀ record, s'.docs.lookup id = some record ↔ c = some (.write id record)) := by
  cases h with
  | same => exact ⟨fun old hl => ⟨old, hl, .same nofun⟩, fun hn record => by simp [hn]⟩
  | write id' record' =>
    by_cases he : id = id'
    · subst he
      refine ⟨fun old hl => ?_, fun _ record => ?_⟩
      · rw [hfresh id record' rfl] at hl
        cases hl
      · simp [lookup_put_self]
    · rw [lookup_put_ne he]
      refine ⟨fun old hl => ⟨old, hl, .other he⟩, fun hn record => ?_⟩
      simp [hn, Ne.symm he]
  | issue id' keyHash record' hl' hclaimed =>
    by_cases he : id = id'
    · subst he
      rw [hl', lookup_put_self]
      refine ⟨fun old hl => ?_, nofun⟩
      obtain rfl := Option.some.inj hl
      exact ⟨_, rfl, .issue keyHash s.clock rfl hclaimed⟩
    · rw [lookup_put_ne he]
      exact ⟨fun old hl => ⟨old, hl, .other he⟩, fun hn record => by simp [hn]⟩
  | revoke id' revokedAt record' hl' =>
    by_cases he : id = id'
    · subst he
      rw [hl', lookup_put_self]
      refine ⟨fun old hl => ?_, nofun⟩
      obtain rfl := Option.some.inj hl
      exact ⟨_, rfl, .revoke revokedAt rfl⟩
    · rw [lookup_put_ne he]
      exact ⟨fun old hl => ⟨old, hl, .other he⟩, fun hn record => by simp [hn]⟩

/-- Where a record comes from: it was written just now, or it succeeds the one that was there. -/
lemma Changes.origin (h : Changes s c s') (hfresh : ∀ id record, c = some (.write id record) → s.docs.lookup id = none)
    (hl : s'.docs.lookup id = some record) :
    c = some (.write id record) ∨ ∃ old, s.docs.lookup id = some old ∧ Succeeds c id old record := by
  cases ho : s.docs.lookup id with
  | none => exact .inl (((h.lookup hfresh).2 ho record).mp hl)
  | some old =>
    obtain ⟨record', hl', hs⟩ := (h.lookup hfresh).1 old ho
    obtain rfl := Option.some.inj (hl.symm.trans hl')
    exact .inr ⟨old, rfl, hs⟩

lemma claimable_eq_some_iff {docs : Docs} {id : String} {record : AnalystAccess} :
    claimable docs id = some record ↔ docs.lookup id = some record ∧ record.claimedAt = none := by
  rw [claimable]
  split
  · rename_i record' hl
    rw [hl, Option.some.injEq]
    split
    · rename_i hclaimed
      constructor
      · exact nofun
      · rintro ⟨rfl, hnone⟩
        simp [hnone] at hclaimed
    · rename_i hclaimed
      simp only [Bool.not_eq_true, Option.isSome_eq_false_iff, Option.isNone_iff_eq_none] at hclaimed
      constructor
      · rintro h
        obtain rfl := Option.some.inj h
        exact ⟨rfl, hclaimed⟩
      · rintro ⟨rfl, -⟩
        rfl
  · rename_i hl
    simp [hl]

lemma exec_changes {a : (accessRecords hash).Action} {s s' : State}
    (h : a.op.exec a.choice s = some (a.reply, s')) : Changes s (change (.act a)) s' := by
  obtain ⟨t, op, choice, reply⟩ := a
  simp only at h
  cases op with
  | set id record =>
    rcases choice with _ | _ | _ | _ | _ <;> cases h
    · exact .write id record
    · exact .same
    · exact .write id record
  | claimAndIssueCredential id keyHash =>
    rcases choice with _ | _ | _ | _ | _
    · simp only [Op.exec] at h
      split at h <;> obtain ⟨rfl, rfl⟩ := Prod.mk.inj (Option.some.inj h)
      · rename_i record hc
        obtain ⟨hl, hn⟩ := claimable_eq_some_iff.mp hc
        exact .issue id keyHash record hl hn
      · exact .same
    · cases h
    · cases h
    · cases h
      exact .same
    · obtain ⟨record, hc, h⟩ := Option.map_eq_some_iff.mp h
      obtain ⟨hl, hn⟩ := claimable_eq_some_iff.mp hc
      cases h
      exact .issue id keyHash record hl hn
  | revoke id revokedAt =>
    rcases choice with _ | _ | _ | _ | _
    · simp only [Op.exec] at h
      split at h <;> obtain ⟨rfl, rfl⟩ := Prod.mk.inj (Option.some.inj h)
      · rename_i record hl
        exact .revoke id revokedAt record hl
      · exact .same
    · cases h
    · cases h
    · cases h
      exact .same
    · obtain ⟨record, hl, h⟩ := Option.map_eq_some_iff.mp h
      cases h
      exact .revoke id revokedAt record hl
  | resolveCredential keyHash =>
    rcases choice with _ | _ | id | _ | _
    · simp only [Op.exec, Option.ite_none_right_eq_some] at h
      cases h.2
      exact .same
    · cases h
    · obtain ⟨record, -, h⟩ := Option.map_eq_some_iff.mp h
      cases h
      exact .same
    · cases h
      exact .same
    · cases h
  | generateSecret =>
    cases choice with
    | secret value =>
      simp only [Op.exec, Option.ite_none_left_eq_some] at h
      cases h.2
      exact .same
    | _ => cases h
  | dateNow => cases choice <;> cases h; exact .same
  | get id => rcases choice with _ | _ | _ | _ | _ <;> cases h <;> exact .same
  | serviceCredentialsOf tenantId callerName => rcases choice with _ | _ | _ | _ | _ <;> cases h <;> exact .same
  | send reply => cases choice <;> cases h; exact .same

end Changes

end ChameleonVault.ScopedAccess
