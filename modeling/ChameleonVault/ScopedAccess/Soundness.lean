import ChameleonVault.Concurrency.Solo
import ChameleonVault.ScopedAccess.Claims

/-! A scoped credential opens exactly what it was issued for, until it is revoked or expires. -/

namespace ChameleonVault.ScopedAccess

open Concurrency Interleaving Discipline
open KeyRegistry (Date truthy truthy_eq_some_iff)

variable {hash : String → String}

section Resolution

variable {s s' : State} {key : String} {choice : Outcome}

def AnalystAccess.resolved (record : AnalystAccess) (now : Date) : Option ResolvedAnalystIdentity :=
  if record.revokedAt.isSome || record.expired now then none else some record.identity

def Holds (hash : String → String) (s : State) (key id : String) (record : AnalystAccess) : Prop :=
  s.docs.lookup id = some record ∧ record.credentialKeyHash = some (hash key)

lemma exec_resolveCredential_iff {found : Option AnalystAccess} :
    Op.exec (.resolveCredential (hash key)) choice s = some (.ok found, s') ↔ s' = s ∧
      (choice = .done ∧ found = none ∧ (∀ id record, ¬ Holds hash s key id record) ∨
        ∃ id record, choice = .found id ∧ found = some record ∧ Holds hash s key id record) := by
  cases choice with
  | done =>
    have hnone : (s.docs.entries.all fun e => !hasKeyHash (hash key) e.2) = true ↔
        ∀ id record, ¬ Holds hash s key id record := by
      simp only [List.all_eq_true, Sigma.forall, ← AList.mem_lookup_iff, Option.mem_def, hasKeyHash, Holds,
        Bool.not_eq_true', beq_eq_false_iff_ne, not_and, ne_eq]
    simp only [Op.exec, hnone, Option.ite_none_right_eq_some, Option.some.injEq, Prod.mk.injEq]
    constructor
    · rintro ⟨hn, hr, rfl⟩
      cases hr
      exact ⟨rfl, .inl ⟨trivial, rfl, hn⟩⟩
    · rintro ⟨rfl, ⟨-, rfl, hn⟩ | ⟨_, _, h, -⟩⟩
      · exact ⟨hn, rfl, rfl⟩
      · cases h
  | found id =>
    simp only [Op.exec, Option.map_eq_some_iff, Option.filter_eq_some_iff, hasKeyHash, beq_iff_eq, Prod.mk.injEq]
    constructor
    · rintro ⟨record, hholds, hr, rfl⟩
      cases hr
      exact ⟨rfl, .inr ⟨id, record, rfl, rfl, hholds⟩⟩
    · rintro ⟨rfl, ⟨h, -⟩ | ⟨_, record, h, rfl, hholds⟩⟩
      · cases h
      · cases h
        exact ⟨record, hholds, rfl, rfl⟩
  | secret value => simp [Op.exec]
  | fail committed => cases committed <;> simp [Op.exec]

lemma ends_dateNow_iff {now : Date} : Ends Op.exec dateNow s now s' ↔ now = s.clock ∧ s' = s := by
  refine ends_perform_iff.trans ⟨?_, ?_⟩
  · rintro ⟨choice, he⟩
    cases choice <;> cases he
    exact ⟨rfl, rfl⟩
  · rintro ⟨rfl, rfl⟩
    exact ⟨.done, rfl⟩

/-- The query's answer decides alone how the call ends. -/
lemma ends_resolveCredential_cases {result : Option ResolvedAnalystIdentity} :
    Ends Op.exec (resolveCredential hash key) s result s' ↔
      ∃ found t, Ends Op.exec (perform (Op.resolveCredential (hash key))) s found t ∧
        found.bind (·.resolved t.clock) = result ∧ t = s' := by
  refine ends_bind_iff.trans (exists₂_congr fun found t => and_congr_right fun _ => ?_)
  cases found with
  | none => exact ends_pure_iff
  | some record =>
    rw [Option.bind_some]
    dsimp only
    unfold AnalystAccess.resolved AnalystAccess.expired
    cases hr : record.revokedAt with
    | some revokedAt => exact ends_pure_iff
    | none =>
      cases he : record.credentialExpiresAt with
      | none => exact ends_pure_iff
      | some expiresAt =>
        refine ends_bind_iff.trans ?_
        simp only [ends_dateNow_iff]
        by_cases hlt : expiresAt < t.clock <;> simp [hlt, ends_pure_iff]

lemma ends_resolveCredential_iff {result : Option ResolvedAnalystIdentity} :
    Ends Op.exec (resolveCredential hash key) s result s' ↔ s' = s ∧
      ((result = none ∧ ∀ id record, ¬ Holds hash s key id record) ∨
        ∃ id record, Holds hash s key id record ∧ result = record.resolved s.clock) := by
  refine ends_resolveCredential_cases.trans ⟨?_, ?_⟩
  · rintro ⟨found, t, he, rfl, rfl⟩
    obtain ⟨choice, he⟩ := ends_perform_iff.mp he
    obtain ⟨rfl, ⟨-, rfl, hn⟩ | ⟨id, record, -, rfl, hholds⟩⟩ := exec_resolveCredential_iff.mp he
    · exact ⟨rfl, .inl ⟨rfl, hn⟩⟩
    · exact ⟨rfl, .inr ⟨id, record, hholds, rfl⟩⟩
  · rintro ⟨rfl, ⟨rfl, hn⟩ | ⟨id, record, hholds, rfl⟩⟩
    · exact ⟨none, s', ends_perform_iff.mpr ⟨.done, exec_resolveCredential_iff.mpr ⟨rfl, .inl ⟨rfl, rfl, hn⟩⟩⟩, rfl,
        rfl⟩
    · exact ⟨some record, s', ends_perform_iff.mpr
        ⟨.found id, exec_resolveCredential_iff.mpr ⟨rfl, .inr ⟨id, record, rfl, rfl, hholds⟩⟩⟩, rfl, rfl⟩

end Resolution

section Authorisation

variable {s s' : State} {key : String} {request : AuthRequest} {result : AuthResult}

def decideAccess (request : AuthRequest) : Option ResolvedAnalystIdentity → AuthResult
  | none => { authorized := false }
  | some identity =>
    if identity.tenantId = request.requestTenantId ∧ isAllowedForCredential identity request.path then {
      authorized := true, analystEmail := some identity.analystEmail, role := some identity.role
      tenantId := some identity.tenantId
      credentialKind := if identity.kind = some .service then some .service else none }
    else { authorized := false }

lemma decideAccess_authorized_iff {identity : Option ResolvedAnalystIdentity} :
    (decideAccess request identity).authorized = true ↔
    ∃ i, identity = some i ∧ i.tenantId = request.requestTenantId ∧ i.credentialKind.allows request.path = true := by
  cases identity with
  | none => simp [decideAccess]
  | some i =>
    rw [decideAccess, isAllowedForCredential_eq]
    split <;> simp_all

lemma resolveAuth_eq (hprovided : request.providedKey = some key) (hshared : key ≠ request.sharedApiKey)
    (hkey : key ≠ "") : resolveAuth hash request =
      if isCredentialPath request.path then do
        let identity ← resolveCredential hash key
        return decideAccess request identity
      else return { authorized := false } := by
  have hne : request.providedKey ≠ some request.sharedApiKey := by simpa [hprovided] using hshared
  have htruthy : truthy request.providedKey = some key := truthy_eq_some_iff.mpr ⟨hprovided, hkey⟩
  rw [resolveAuth, if_neg hne, htruthy]
  simp only
  congr 1
  congr 1
  funext identity
  cases identity with
  | none => rfl
  | some identity =>
    simp only [decideAccess]
    split <;> rfl

lemma resolved_eq_some_iff {record : AnalystAccess} {now : Date} {identity : ResolvedAnalystIdentity} :
    record.resolved now = some identity ↔
      record.revokedAt = none ∧ record.expired now = false ∧ record.identity = identity := by
  unfold AnalystAccess.resolved
  cases record.revokedAt <;> cases record.expired now <;> simp

lemma ends_resolveAuth (hprovided : request.providedKey = some key) (hshared : key ≠ request.sharedApiKey)
    (hkey : key ≠ "") (hsame : ∀ id id' record record', Holds hash s key id record → Holds hash s key id' record' →
      record = record') :
    (∃ result, Ends Op.exec (resolveAuth hash request) s result s) ∧
    ∀ result s', Ends Op.exec (resolveAuth hash request) s result s' →
      (result.authorized = true ↔ ∃ id record, Holds hash s key id record ∧ record.revokedAt = none ∧
        record.expired s.clock = false ∧ record.tenantId = request.requestTenantId ∧
        record.identity.credentialKind.allows request.path = true) := by
  rw [resolveAuth_eq hprovided hshared hkey]
  by_cases hpath : isCredentialPath request.path = true
  · simp only [if_pos hpath, ends_bind_iff, ends_resolveCredential_iff, ends_pure_iff]
    constructor
    · by_cases hn : ∀ id record, ¬ Holds hash s key id record
      · exact ⟨_, none, s, ⟨rfl, .inl ⟨rfl, hn⟩⟩, rfl, rfl⟩
      · push Not at hn
        obtain ⟨id, record, hholds⟩ := hn
        exact ⟨_, _, s, ⟨rfl, .inr ⟨id, record, hholds, rfl⟩⟩, rfl, rfl⟩
    · rintro result s' ⟨identity, t, ⟨rfl, h⟩, rfl, rfl⟩
      rw [decideAccess_authorized_iff]
      rcases h with ⟨rfl, hn⟩ | ⟨id, record, hholds, rfl⟩
      · constructor
        · rintro ⟨i, h, -⟩
          cases h
        · rintro ⟨id, record, hholds, -⟩
          exact absurd hholds (hn id record)
      · simp only [resolved_eq_some_iff]
        constructor
        · rintro ⟨i, ⟨hr, he, rfl⟩, ht, ha⟩
          exact ⟨id, record, hholds, hr, he, ht, ha⟩
        · rintro ⟨id', record', hholds', hr, he, ht, ha⟩
          obtain rfl := hsame id' id record' record hholds' hholds
          exact ⟨record'.identity, ⟨hr, he, rfl⟩, ht, ha⟩
  · simp only [if_neg hpath, ends_pure_iff]
    refine ⟨⟨_, rfl, trivial⟩, ?_⟩
    rintro result s' ⟨rfl, rfl⟩
    constructor
    · exact nofun
    · rintro ⟨id, record, -, -, -, -, ha⟩
      exact absurd (isCredentialPath_of_allows ha) hpath

end Authorisation

section Results

variable {log : (accessRecords hash).Log} {s : State} {now : Date} {c : (accessRecords hash).Config} {key id : String}
  {record first : AnalystAccess} {request : AuthRequest}

/-- The key was generated, and its hash put under the record that was first written so. -/
def Issued (log : (accessRecords hash).Log) (key id : String) (first : AnalystAccess) : Prop :=
  key ∈ secrets log ∧ .write id first ∈ changes log ∧
    (first.credentialKeyHash = some (hash key) ∨ .issue id (hash key) ∈ changes log)

def Revoked (log : (accessRecords hash).Log) (id : String) : Prop := ∃ revokedAt, .revoke id revokedAt ∈ changes log

lemma Consistent.unique (h : Consistent s log) {id' : String} {record' : AnalystAccess}
    (hr : Holds hash s key id record) (hr' : Holds hash s key id' record') : id = id' ∧ record = record' := by
  obtain ⟨-, t, secret, hstored, he, hid⟩ := h.key hr.1 hr.2
  obtain ⟨-, t', secret', hstored', he', hid'⟩ := h.key hr'.1 hr'.2
  obtain rfl := h.owner hstored.1 hstored'.1 (he.symm.trans he')
  have hids : id = id' := by
    rcases hid with ⟨hnone, rfl⟩ | ⟨looked, hlooked⟩ <;> rcases hid' with ⟨hnone', rfl⟩ | ⟨looked', hlooked'⟩
    · rfl
    · cases hnone.symm.trans hlooked'
    · cases hlooked.symm.trans hnone'
    · exact (Prod.mk.inj (Option.some.inj (hlooked.symm.trans hlooked'))).1
  subst hids
  exact ⟨rfl, Option.some.inj (hr.1.symm.trans hr'.1)⟩

lemma holds_iff (hcons : Consistent s log) (hrec : Recorded s log) (hkey : Recognised log key) :
    (∃ record, Holds hash s key id record ∧ record.terms = first.terms ∧ .write id first ∈ changes log) ↔
      Issued log key id first := by
  constructor
  · rintro ⟨record, ⟨hl, hk⟩, -, hwritten⟩
    obtain ⟨first', hfirst', -, hhash, -⟩ := hrec.written hl
    obtain rfl := hrec.once hwritten hfirst'
    obtain ⟨-, t, secret, hstored, he, -⟩ := hcons.key hl hk
    obtain rfl := hkey secret (hcons.held hstored.1) he
    exact ⟨hcons.held hstored.1, hwritten, (hhash _).mp hk⟩
  · rintro ⟨-, hwritten, hk⟩
    obtain ⟨record, hl⟩ := hrec.present hwritten
    obtain ⟨first', hfirst', hterms, hhash, -⟩ := hrec.written hl
    obtain rfl := hrec.once hwritten hfirst'
    exact ⟨record, ⟨hl, (hhash _).mpr hk⟩, hterms, hwritten⟩

lemma Recorded.revoked_iff (hrec : Recorded s log) (hl : s.docs.lookup id = some record) :
    record.revokedAt = none ↔ ¬ Revoked log id := by
  obtain ⟨_, _, _, _, hrevoked⟩ := hrec.written hl
  rw [Revoked, ← hrevoked, Bool.not_eq_true, Option.isSome_eq_false_iff, Option.isNone_iff_eq_none]

/-- What was issued under an id, as the record that is stored there now has it. -/
lemma admitted_iff (hcons : Consistent s log) (hrec : Recorded s log) (hkey : Recognised log key) :
    (∃ id record, Holds hash s key id record ∧ record.revokedAt = none ∧ record.expired s.clock = false ∧
      record.tenantId = request.requestTenantId ∧ record.identity.credentialKind.allows request.path = true) ↔
    ∃ id first, Issued log key id first ∧ first.tenantId = request.requestTenantId ∧ ¬ Revoked log id ∧
      first.expired s.clock = false ∧ first.identity.credentialKind.allows request.path = true := by
  have hsame {record first : AnalystAccess} (h : record.terms = first.terms) : record.tenantId = first.tenantId ∧
      record.expired s.clock = first.expired s.clock ∧ record.identity = first.identity := by
    obtain ⟨hidentity, -, hexpires⟩ := AnalystAccess.terms_eq_iff.mp h
    refine ⟨congrArg ResolvedAnalystIdentity.tenantId hidentity, ?_, hidentity⟩
    rw [AnalystAccess.expired, AnalystAccess.expired, hexpires]
  constructor
  · rintro ⟨id, record, hholds, hr, he, ht, ha⟩
    obtain ⟨first, hfirst, hterms, -⟩ := hrec.written hholds.1
    obtain ⟨htenant, hexpired, hidentity⟩ := hsame hterms
    refine ⟨id, first, (holds_iff hcons hrec hkey).mp ⟨record, hholds, hterms, hfirst⟩, htenant ▸ ht, ?_, ?_, ?_⟩
    · exact (hrec.revoked_iff hholds.1).mp hr
    · rw [← hexpired, he]
    · rw [← hidentity, ha]
  · rintro ⟨id, first, hissued, ht, hr, he, ha⟩
    obtain ⟨record, hholds, hterms, -⟩ := (holds_iff hcons hrec hkey).mpr hissued
    obtain ⟨htenant, hexpired, hidentity⟩ := hsame hterms
    refine ⟨id, record, hholds, (hrec.revoked_iff hholds.1).mpr hr, ?_, htenant.trans ht, ?_⟩
    · rw [hexpired, he]
    · rw [hidentity, ha]

lemma Issued.unique (hcons : Consistent s log) (hrec : Recorded s log) (hkey : Recognised log key) {id' : String}
    {first' : AnalystAccess} (h : Issued log key id first) (h' : Issued log key id' first') :
    id = id' ∧ first = first' := by
  obtain ⟨record, hholds, -⟩ := (holds_iff hcons hrec hkey).mpr h
  obtain ⟨record', hholds', -⟩ := (holds_iff hcons hrec hkey).mpr h'
  obtain ⟨rfl, -⟩ := hcons.unique hholds hholds'
  exact ⟨rfl, hrec.once h.2.1 h'.2.1⟩

lemma secrets_nonempty (h : Reachable (freshSecrets hash) (noRecords hash now) c) : "" ∉ secrets c.log := by
  have hind : Inductive (secretKeeping hash) (fun _ => True) (freshSecrets hash) (fun _ log => "" ∉ secrets log) := by
    refine ⟨fun {s s' log a} hi ha => ?_, fun {s s' log n} hi _ _ _ => hi⟩
    obtain ⟨t, op, choice, reply⟩ := a
    have hexec := ha.exec
    cases hsecret : secretOf (.act ⟨t, op, choice, reply⟩) with
    | none => simpa [secrets, hsecret] using hi
    | some secret =>
      have hne : "" ≠ secret := by
        rintro rfl
        cases op with
        | generateSecret =>
          cases reply <;> cases hsecret
          cases choice with
          | secret value =>
            simp only [Op.exec, Option.ite_none_left_eq_some, Option.some.injEq, Prod.mk.injEq] at hexec
            obtain ⟨hvalue, he, -⟩ := hexec
            exact hvalue (Except.ok.inj he)
          | _ => cases hexec
        | _ => cases hsecret
      simpa [secrets, hsecret, hne] using hi
  exact hind.run (secretKeeping_governs hash) (conforms_initial trivial) (fun h => by cases h) h

theorem credential_sound (hc : Reachable (freshSecrets hash) (noRecords hash now) c)
    (hprovided : request.providedKey = some key) (hshared : key ≠ request.sharedApiKey) (hkey : Recognised c.log key) :
    (∃ result, Ends Op.exec (resolveAuth hash request) c.state result c.state) ∧
    ∀ result s', Ends Op.exec (resolveAuth hash request) c.state result s' →
      (result.authorized = true ↔ ∃ id first, Issued c.log key id first ∧
        first.tenantId = request.requestTenantId ∧ ¬ Revoked c.log id ∧ first.expired c.state.clock = false ∧
        first.identity.credentialKind.allows request.path = true) ∧
      ∀ id first, Issued c.log key id first → first.identity.credentialKind.allows request.path = false →
        result.authorized = false := by
  obtain ⟨hcons, hrec⟩ := ledger_reachable hc
  have hsound : (∃ result, Ends Op.exec (resolveAuth hash request) c.state result c.state) ∧
      ∀ result s', Ends Op.exec (resolveAuth hash request) c.state result s' →
        (result.authorized = true ↔ ∃ id first, Issued c.log key id first ∧
          first.tenantId = request.requestTenantId ∧ ¬ Revoked c.log id ∧ first.expired c.state.clock = false ∧
          first.identity.credentialKind.allows request.path = true) := by
    by_cases hempty : key = ""
    · subst hempty
      have hne : request.providedKey ≠ some request.sharedApiKey := by simpa [hprovided] using hshared
      have hrefused : resolveAuth hash request = return { authorized := false } := by
        rw [resolveAuth, if_neg hne, hprovided]
        rfl
      rw [hrefused]
      refine ⟨⟨_, ends_pure_iff.mpr ⟨rfl, rfl⟩⟩, fun result s' h => ?_⟩
      obtain ⟨rfl, rfl⟩ := ends_pure_iff.mp h
      constructor
      · exact nofun
      · rintro ⟨id, first, hissued, -⟩
        exact absurd hissued.1 (secrets_nonempty hc)
    · have hsame id id' record record' (h : Holds hash c.state key id record) (h' : Holds hash c.state key id' record') :
          record = record' := (hcons.unique h h').2
      obtain ⟨hsome, hall⟩ := ends_resolveAuth hprovided hshared hempty hsame
      exact ⟨hsome, fun result s' h => (hall result s' h).trans (admitted_iff hcons hrec hkey)⟩
  refine ⟨hsound.1, fun result s' h => ⟨hsound.2 result s' h, fun id first hissued hnot => ?_⟩⟩
  rw [← Bool.not_eq_true]
  intro hauthorized
  obtain ⟨id', first', hissued', -, -, -, ha⟩ := (hsound.2 result s' h).mp hauthorized
  obtain ⟨-, rfl⟩ := Issued.unique hcons hrec hkey hissued hissued'
  rw [hnot] at ha
  cases ha

section Runs

def serviceMinted : List AccessEvent :=
  [.start (.mintServiceCredential "acme" "billing"), .act 0 (.secret "service-key"), .env 5, .act 0 .done, .act 0 .done,
    .act 0 .done]

def serviceRecord : AnalystAccess where
  claimTokenHash := sha256 "service-key"
  credentialKeyHash := some (sha256 "service-key")
  tenantId := "acme"
  analystEmail := "billing"
  createdAt := 5
  expiresAt := serviceRecordExpiresAt
  claimedAt := some 5
  source := some .consoleSession
  kind := some .service

def serviceRequest (path requestTenantId : String) : AuthRequest := ⟨path, some "service-key", "shared-key", requestTenantId⟩

theorem credential_sound_service : ∃ c : (accessRecords sha256).Config,
    Reachable (freshSecrets sha256) (noRecords sha256 0) c ∧
    (∀ result s', Ends Op.exec (resolveAuth sha256 (serviceRequest "/deletion-requests/7/advance" "acme")) c.state
      result s' → result.authorized = true) ∧
    (∀ result s', Ends Op.exec (resolveAuth sha256 (serviceRequest "/deletion-requests" "globex")) c.state
      result s' → result.authorized = false) ∧
    ∀ result s', Ends Op.exec (resolveAuth sha256 (serviceRequest "/decrypt" "acme")) c.state result s' →
      result.authorized = false := by
  have h : ∃ c : (accessRecords sha256).Config, Reachable (freshSecrets sha256) (noRecords sha256 0) c ∧
      secrets c.log = ["service-key"] ∧ changes c.log = [.write (sha256 "service-key") serviceRecord] :=
    exists_reachable serviceMinted _ (by decide +kernel)
  obtain ⟨c, hc, hsecrets, hchanges⟩ := h
  have hknown : Recognised c.log "service-key" := by
    rw [Recognised, hsecrets]
    decide
  have hissued : Issued c.log "service-key" (sha256 "service-key") serviceRecord := by
    rw [Issued, hsecrets, hchanges]
    exact ⟨List.mem_singleton_self _, List.mem_singleton_self _, .inl rfl⟩
  have hvalid : ¬ Revoked c.log (sha256 "service-key") := by
    rw [Revoked, hchanges]
    simp
  have hsound path tenantId := (@credential_sound sha256 0 c "service-key" (serviceRequest path tenantId) hc rfl
    (by decide : "service-key" ≠ "shared-key") hknown).2
  refine ⟨c, hc, fun result s' h => ?_, fun result s' h => ?_, fun result s' h => ?_⟩
  · refine (hsound _ _ result s' h).1.mpr ⟨_, _, hissued, rfl, hvalid, rfl, ?_⟩
    decide +kernel
  · rw [← Bool.not_eq_true, (hsound _ _ result s' h).1]
    rintro ⟨id, first, hfirst, htenant, -⟩
    obtain ⟨hcons, hrec⟩ := ledger_reachable hc
    obtain ⟨-, rfl⟩ := Issued.unique hcons hrec hknown hfirst hissued
    exact absurd htenant (by decide)
  · refine (hsound _ _ result s' h).2 _ _ hissued ?_
    decide +kernel

end Runs

end Results

end ChameleonVault.ScopedAccess
