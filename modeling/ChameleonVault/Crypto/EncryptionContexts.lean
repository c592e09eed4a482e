import ChameleonVault.Collections.OrderedMap
import ChameleonVault.Concurrency.Readers
import ChameleonVault.Crypto.RoundTrip
import ChameleonVault.KeyRegistry.EncryptionVersions
import ChameleonVault.Lineage.Events

/-! The context that a client encrypts a user's data with, read for one user or for many. -/

namespace ChameleonVault.Crypto

open Concurrency Call
open Deletion (Headers Reply defaultTenant validationFailed)
open KeyRegistry (Date HasVersion KeyData KeyMetadata KeyStatus KeyState Owner Stored Tokenization getDocId
  hasVersion_of_stored truthy truthy_eq_some_iff userIdSchema)

section Contexts

/-- The answer has the field, but what reads the document leaves it out. -/
def encryptionVersionOf (_ : KeyStatus) : Option String := none

/-- Every value is answered under both spellings of its name. -/
structure EncryptionContext where
  userId : String
  keyId : Option String
  encryptedDek : List Char
  algorithm : String
  encryptionVersion : String
  tokenization : Tokenization
  status : KeyState

def encryptionContext (userId : String) (keyStatus : KeyStatus) (keyData : KeyData) : EncryptionContext where
  userId := userId
  keyId := keyData.activeDekId
  encryptedDek := Encoding.Base64.encode keyData.encryptedDek
  algorithm := "AES-256-GCM"
  encryptionVersion := (truthy (encryptionVersionOf keyStatus)).getD "v1"
  tokenization := ⟨"HMAC-SHA256", "chameleon-token-key-v1"⟩
  status := keyStatus.status

/-- What both endpoints come to, before each words its answer. -/
inductive ContextReading where
  | notFound
  | materialMissing
  | found (context : EncryptionContext)

def isGone (status : KeyState) : Bool := status = .shredded || status = .deleted

def getKeyStatus (now : Date) (owner : Owner) : VaultCall (Option KeyStatus) := do
  let doc ← keyCall owner KeyRegistry.get
  return KeyRegistry.getKeyStatus now doc

def readContext (now : Date) (owner : Owner) : VaultCall ContextReading := do
  let keyStatus ← getKeyStatus now owner
  match keyStatus.filter fun keyStatus => !isGone keyStatus.status with
  | none => return .notFound
  | some keyStatus =>
    let keyData ← keyCall owner (KeyRegistry.FirestoreRegistry.getKeyForUser none)
    match keyData with
    | none => return .materialMissing
    | some keyData => return .found (encryptionContext owner.userId keyStatus keyData)

end Contexts

section Endpoints

def ContextReading.reply : ContextReading → Reply EncryptionContext
  | notFound => .failed 404 "User key not found or has been shredded"
  | materialMissing => .failed 500 "Internal server error: Key material missing"
  | found context => .sent 200 context

/-- `GET /key/:userId/encryption-context`; what the validation throws is no error object. -/
def getEncryptionContext (now : Date) (headers : Headers) (userId : String) : VaultCall (Reply EncryptionContext) :=
  if userIdSchema userId then
    tryCatch (do return (← readContext now ⟨headers.tenant, userId⟩).reply) fun err =>
      return .failed 500 "Failed to retrieve encryption context" (some err)
  else return .failed 500 "Failed to retrieve encryption context" (some "[object Object]")

structure BatchBody where
  userIds : List String
  tenantId : Option String := none
  tenantIdAlias : Option String := none

def tenantSchema (tenantId : String) : Bool :=
  decide (1 ≤ Lineage.codeUnits tenantId ∧ Lineage.codeUnits tenantId ≤ 128)

def BatchBody.accepted (body : BatchBody) : Bool :=
  decide (1 ≤ body.userIds.length ∧ body.userIds.length ≤ 1000) && body.userIds.all userIdSchema &&
    body.tenantId.all tenantSchema && body.tenantIdAlias.all tenantSchema

def BatchBody.tenant (body : BatchBody) (headers : Headers) : String :=
  (((truthy headers.tenantId).or (truthy body.tenantId)).or (truthy body.tenantIdAlias)).getD defaultTenant

inductive ContextResult where
  | found (context : EncryptionContext)
  | failed (userId error : String) (statusCode : ℕ)

def ContextReading.result (userId : String) : ContextReading → ContextResult
  | notFound => .failed userId "Key not found or shredded" 404
  | materialMissing => .failed userId "Internal server error: Key material missing" 500
  | found context => .found context

def ContextResult.context : ContextResult → Option EncryptionContext
  | found context => some context
  | failed _ _ _ => none

structure BatchContexts where
  processed : ℕ
  contexts : List EncryptionContext
  contextsByUserId : Collections.OrderedMap String EncryptionContext
  results : List ContextResult

def batchContexts (results : List ContextResult) : BatchContexts where
  processed := results.length
  contexts := results.filterMap ContextResult.context
  contextsByUserId := .ofList ((results.filterMap ContextResult.context).map fun context => (context.userId, context))
  results := results

def contextEntry (now : Date) (owner : Owner) : VaultCall ContextResult :=
  tryCatch (do return (← readContext now owner).result owner.userId) fun _ =>
    return .failed owner.userId "Failed to retrieve encryption context" 500

/-- `Promise.all` -/
def contextEntries (now : Date) (tenantId : String) : List String → VaultCall (List ContextResult)
  | [] => return []
  | userId :: userIds => ExceptT.mk (Prog.awaitAll (fun result results => .done (.ok (result :: results)))
      (fun err => .done (.error err)) (contextEntry now ⟨tenantId, userId⟩).run (contextEntries now tenantId userIds).run)

def batchFor (now : Date) (tenantId : String) (userIds : List String) : VaultCall (Reply BatchContexts) := do
  keyCall ⟨tenantId, ""⟩ KeyRegistry.ensureTenantKey
  let results ← contextEntries now tenantId userIds
  return .sent 200 (batchContexts results)

/-- `POST /keys/batch-encryption-context` -/
def batchEncryptionContext (now : Date) (headers : Headers) (body : BatchBody) : VaultCall (Reply BatchContexts) :=
  if body.accepted then
    tryCatch (batchFor now (body.tenant headers) body.userIds) fun err =>
      return .failed 500 ((truthy (some err)).getD "Batch processing failed")
  else return .failed 400 validationFailed

end Endpoints

section Readings

variable {kms : Kms} {s : Collection} {owner : Owner} {now now' : Date} {userId : String} {doc : Option KeyMetadata}
  {data : KeyMetadata} {keyData : KeyData} {context : EncryptionContext} {reading : ContextReading}

def readingOf (userId : String) (doc : Option KeyMetadata) : Except String ContextReading :=
  match (KeyRegistry.getKeyStatus 0 doc).filter fun keyStatus => !isGone keyStatus.status with
  | none => .ok .notFound
  | some keyStatus =>
    (KeyRegistry.getKeyForUser doc none).map fun keyData =>
      keyData.elim .materialMissing fun keyData => .found (encryptionContext userId keyStatus keyData)

def replyOf : Except String ContextReading → Reply EncryptionContext
  | .ok reading => reading.reply
  | .error err => .failed 500 "Failed to retrieve encryption context" (some err)

def resultOf (userId : String) : Except String ContextReading → ContextResult
  | .ok reading => reading.result userId
  | .error _ => .failed userId "Failed to retrieve encryption context" 500

lemma readContext_spec : MustCall (VaultOp.exec kms) (steady kms) (readContext now owner) s
    (fun reading _ => readingOf owner.userId (s.docs owner.docId) = .ok reading)
    fun err _ => readingOf owner.userId (s.docs owner.docId) = .error err := by
  rw [readContext, getKeyStatus]
  refine MustCall.bind (MustCall.bind (get_spec.mono ?_ fun _ _ h => absurd h.2 not_canFail_steady))
  rintro doc t ⟨rfl, rfl⟩
  refine MustCall.pure ?_
  rw [readingOf]
  cases hdoc : t.docs owner.docId with
  | none => exact MustCall.pure rfl
  | some data =>
    cases hgone : isGone data.status with
    | true =>
      simp only [KeyRegistry.getKeyStatus, Option.map_some, Option.filter_some, hgone, Bool.not_true, Bool.false_eq_true,
        if_false]
      exact MustCall.pure rfl
    | false =>
      simp only [KeyRegistry.getKeyStatus, Option.map_some, Option.filter_some, hgone, Bool.not_false, if_true]
      refine MustCall.bind (getKeyForUser_spec.mono (fun keyData u hu => ?_) fun err u hu => ?_)
      · obtain ⟨-, hkey⟩ := hu
        rw [hdoc] at hkey
        rw [hkey]
        cases keyData with
        | none => exact MustCall.pure rfl
        | some keyData => exact MustCall.pure rfl
      · obtain ⟨-, herror⟩ := hu
        rw [← hdoc, herror.resolve_right not_canFail_steady]
        rfl

lemma replies_getEncryptionContext {headers : Headers} (huser : userIdSchema userId = true) :
    Replies kms (getEncryptionContext now headers userId) s
      (replyOf (readingOf userId (s.docs (getDocId headers.tenant userId)))) := by
  refine replies_of_must ?_
  rw [getEncryptionContext]
  rw [if_pos huser]
  refine MustCall.tryCatch (MustCall.bind (readContext_spec.mono (fun reading t h => ?_) fun err t h => ?_))
  · have hreading : readingOf userId (s.docs (getDocId headers.tenant userId)) = .ok reading := h
    rw [hreading]
    exact MustCall.pure rfl
  · have herror : readingOf userId (s.docs (getDocId headers.tenant userId)) = .error err := h
    rw [herror]
    exact MustCall.pure rfl

lemma reads_get : Reads (VaultOp.exec kms) (steady kms) s (.key ⟨owner, .get⟩) := by
  rintro choice reply t - he
  obtain ⟨outcome, d, rfl, hd, rfl⟩ := exec_key he
  obtain rfl := KeyRegistry.exec_get rfl hd
  exact of_self

lemma uses_contextEntry : (contextEntry now owner).run.Uses (Reads (VaultOp.exec kms) (steady kms) s) := by
  have hget : (keyCall owner KeyRegistry.get).run.Uses (Reads (VaultOp.exec kms) (steady kms) s) :=
    Call.uses_perform reads_get
  rw [contextEntry, readContext, getKeyStatus, KeyRegistry.FirestoreRegistry.getKeyForUser]
  refine Call.uses_tryCatch (Call.uses_bind (Call.uses_bind (Call.uses_bind hget fun _ => Call.uses_pure _) ?_) ?_) ?_
  · intro keyStatus
    split
    · exact Call.uses_pure _
    · rw [keyCall_bind]
      refine Call.uses_bind (Call.uses_bind hget fun doc => ?_) fun keyData => ?_
      · split
        · exact Call.uses_pure _
        · exact Call.uses_throw _
      · split
        · exact Call.uses_pure _
        · exact Call.uses_pure _
  · exact fun _ => Call.uses_pure _
  · exact fun _ => Call.uses_pure _

lemma uses_contextEntries {tenantId : String} {userIds : List String} :
    (contextEntries now tenantId userIds).run.Uses (Reads (VaultOp.exec kms) (steady kms) s) := by
  induction userIds with
  | nil => exact Call.uses_pure _
  | cons userId userIds ih => exact .awaitAll uses_contextEntry ih (fun _ _ => trivial) fun _ => trivial

lemma contextEntry_spec : MustCall (VaultOp.exec kms) (steady kms) (contextEntry now owner) s
    (fun result _ => result = resultOf owner.userId (readingOf owner.userId (s.docs owner.docId))) fun _ _ => False := by
  rw [contextEntry]
  refine MustCall.tryCatch (MustCall.bind (readContext_spec.mono (fun reading t h => ?_) fun err t h => ?_))
  · rw [h]
    exact MustCall.pure rfl
  · rw [h]
    exact MustCall.pure rfl

lemma contextEntries_spec {tenantId : String} {userIds : List String} : Must (VaultOp.exec kms) (steady kms)
    (contextEntries now tenantId userIds).run s fun r _ => ∃ results, r = .ok results ∧
      results = userIds.map fun userId => resultOf userId (readingOf userId (s.docs (getDocId tenantId userId))) := by
  induction userIds with
  | nil => exact Must.done ⟨[], rfl, rfl⟩
  | cons userId userIds ih =>
    have hentry : Must (VaultOp.exec kms) (steady kms) (contextEntry now ⟨tenantId, userId⟩).run s fun r _ =>
        ∃ result, r = .ok result ∧ result = resultOf userId (readingOf userId (s.docs (getDocId tenantId userId))) := by
      refine Must.mono contextEntry_spec ?_
      rintro (err | result) t h
      · exact h.elim
      · exact ⟨result, rfl, h⟩
    refine must_awaitAll uses_contextEntry uses_contextEntries hentry ih ?_
    rintro _ _ rfl rfl
    exact Must.done ⟨_, rfl, rfl⟩

/-- The batch endpoint answers for each of the users what the user's document reads as. -/
lemma replies_batchEncryptionContext {headers : Headers} {body : BatchBody} (hbody : body.accepted = true) :
    Replies kms (batchEncryptionContext now headers body) s (.sent 200 (batchContexts (body.userIds.map fun userId =>
      resultOf userId (readingOf userId (s.docs (getDocId (body.tenant headers) userId)))))) := by
  refine replies_of_must ?_
  rw [batchEncryptionContext, batchFor]
  rw [if_pos hbody]
  refine MustCall.tryCatch (MustCall.bind (ensureTenantKey_spec.mono ?_ fun _ _ h => absurd h.2 not_canFail_steady))
  rintro _ t rfl
  refine MustCall.bind (Must.mono contextEntries_spec ?_)
  rintro _ u ⟨results, rfl, rfl⟩
  exact MustCall.pure rfl

end Readings

section Agreement

def ContextResult.outcome : ContextResult → Except ℕ EncryptionContext
  | found context => .ok context
  | failed _ _ statusCode => .error statusCode

def outcomeOf : Reply EncryptionContext → Except ℕ EncryptionContext
  | .sent _ context => .ok context
  | .failed statusCode _ _ => .error statusCode

def Active (doc : Option KeyMetadata) : Prop := ∃ keyData, KeyRegistry.getKeyForUser doc none = .ok (some keyData)

/-- The context is of the key that is stored, and that `getKeyForUser` gives out. -/
def IsCurrent (doc : Option KeyMetadata) (context : EncryptionContext) : Prop :=
  ∃ data keyId dek, doc = some data ∧ (data.activeDekId = some keyId ∧ data.deks.lookup keyId = some dek) ∧
    (context.keyId = some keyId ∧ context.encryptedDek = Encoding.Base64.encode dek ∧
      data.encryptionVersion = some context.encryptionVersion) ∧
    KeyRegistry.getKeyForUser doc none = .ok (some ⟨dek, some keyId, context.encryptionVersion⟩)

/-- What a list of users is answered, each as on its own, and each active user with the current key. -/
def ContextsAgree (kms : Kms) (s : Collection) (headers : Headers) (body : BatchBody) : Prop :=
  ∀ now, ∃ contexts, Replies kms (batchEncryptionContext now headers body) s (.sent 200 contexts) ∧
    List.Forall₂ (fun userId result =>
      (∀ now' headers', headers'.tenant = body.tenant headers →
        ∃ reply, Replies kms (getEncryptionContext now' headers' userId) s reply ∧ outcomeOf reply = result.outcome) ∧
      contexts.contextsByUserId.get? userId = result.context ∧
      (Active (s.docs (getDocId (body.tenant headers) userId)) →
        ∃ context, result.context = some context ∧ IsCurrent (s.docs (getDocId (body.tenant headers) userId)) context))
      body.userIds contexts.results

variable {kms : Kms} {s : Collection} {headers : Headers} {body : BatchBody} {userId : String}
  {doc : Option KeyMetadata} {reading : Except String ContextReading} {context : EncryptionContext}

lemma outcome_eq : outcomeOf (replyOf reading) = (resultOf userId reading).outcome := by
  cases reading with
  | error err => rfl
  | ok reading => cases reading <;> rfl

lemma context_of_reading (h : (resultOf userId (readingOf userId doc)).context = some context) :
    context.userId = userId ∧ context.encryptionVersion = "v1" := by
  rw [readingOf] at h
  cases hstatus : (KeyRegistry.getKeyStatus 0 doc).filter fun keyStatus => !isGone keyStatus.status with
  | none =>
    rw [hstatus] at h
    cases h
  | some keyStatus =>
    rw [hstatus] at h
    cases hkey : KeyRegistry.getKeyForUser doc none with
    | error err =>
      rw [hkey] at h
      cases h
    | ok keyData =>
      rw [hkey] at h
      cases keyData with
      | none => cases h
      | some keyData =>
        cases h
        exact ⟨rfl, rfl⟩

lemma get?_contextsByUserId {docs : String → Option KeyMetadata} {userIds : List String} (hm : userId ∈ userIds) :
    (batchContexts (userIds.map fun userId => resultOf userId (readingOf userId (docs userId)))).contextsByUserId.get?
      userId = (resultOf userId (readingOf userId (docs userId))).context := by
  set entries := ((userIds.map fun userId => resultOf userId (readingOf userId (docs userId))).filterMap
    ContextResult.context).map fun context => (context.userId, context) with hentries
  have hmem (key : String) (context : EncryptionContext) : (key, context) ∈ entries ↔
      key ∈ userIds ∧ (resultOf key (readingOf key (docs key))).context = some context := by
    simp only [hentries, List.mem_map, List.mem_filterMap, Prod.mk.injEq]
    constructor
    · rintro ⟨context, ⟨_, ⟨userId, huser, rfl⟩, hcontext⟩, rfl, rfl⟩
      rw [(context_of_reading hcontext).1]
      exact ⟨huser, hcontext⟩
    · rintro ⟨huser, hcontext⟩
      exact ⟨context, ⟨_, ⟨key, huser, rfl⟩, hcontext⟩, (context_of_reading hcontext).1, rfl⟩
  change (Collections.OrderedMap.ofList entries).get? userId = _
  cases hcontext : (resultOf userId (readingOf userId (docs userId))).context with
  | none =>
    refine Collections.OrderedMap.get?_ofList_eq_none.mpr fun entry he hkey => ?_
    have hsome := ((hmem entry.1 entry.2).mp he).2
    rw [hkey, hcontext] at hsome
    contradiction
  | some context =>
    refine Collections.OrderedMap.get?_ofList_of_unique ((hmem userId context).mpr ⟨hm, hcontext⟩) fun other ho => ?_
    exact Option.some.inj (((hmem userId other).mp ho).2.symm.trans hcontext)

theorem contexts_agree_iff (kms : Kms) (hbody : body.accepted = true)
    (hstored : ∀ userId ∈ body.userIds, Stored userId (s.docs (getDocId (body.tenant headers) userId))) :
    ContextsAgree kms s headers body ↔
      ∀ userId ∈ body.userIds, ¬Active (s.docs (getDocId (body.tenant headers) userId)) := by
  have huser : ∀ userId ∈ body.userIds, userIdSchema userId = true := by
    simp only [BatchBody.accepted, Bool.and_eq_true] at hbody
    exact List.all_eq_true.mp hbody.1.1.2
  constructor
  · intro hagree userId hm hactive
    obtain ⟨contexts, hreplies, hresults⟩ := hagree 0
    obtain ⟨-, rfl⟩ := Reply.sent.inj (hreplies.unique (replies_batchEncryptionContext hbody))
    obtain ⟨-, -, hcurrent⟩ := List.forall₂_same.mp (List.forall₂_map_right_iff.mp hresults) userId hm
    obtain ⟨context, hcontext, data, keyId, dek, hdoc, ⟨hkeyId, -⟩, ⟨-, -, hversion⟩, -⟩ := hcurrent hactive
    have hstored := hstored userId hm
    rw [hdoc] at hstored
    have hv2 : data.encryptionVersion = some "v2" := KeyRegistry.hasVersion_of_stored hstored (hkeyId ▸ rfl)
    rw [(context_of_reading hcontext).2] at hversion
    exact absurd (Option.some.inj (hv2.symm.trans hversion)) (by decide)
  · intro hnone now
    refine ⟨_, replies_batchEncryptionContext hbody, ?_⟩
    refine List.forall₂_map_right_iff.mpr (List.forall₂_same.mpr fun userId hm => ⟨?_, ?_, ?_⟩)
    · intro now' headers' htenant
      refine ⟨_, replies_getEncryptionContext (huser userId hm), ?_⟩
      rw [htenant]
      exact outcome_eq
    · exact get?_contextsByUserId hm
    · exact fun hactive => absurd hactive (hnone userId hm)

end Agreement

section Users

def holding (userId : String) (doc : Option KeyMetadata) : Collection :=
  ⟨0, Function.update (fun _ => none) (getDocId defaultTenant userId) doc⟩

variable {userId other : String} {doc : Option KeyMetadata} {data : KeyMetadata}

lemma docs_holding : (holding userId doc).docs (getDocId defaultTenant userId) = doc := by simp [holding]

lemma docs_holding_ne (h : other ≠ userId) : (holding userId doc).docs (getDocId defaultTenant other) = none := by
  have hid : getDocId defaultTenant other ≠ getDocId defaultTenant userId :=
    fun he => h ((String.append_right_inj _).mp he)
  simp [holding, hid]

lemma stored_none : Stored userId none := ⟨0, _, .refl, rfl⟩

lemma not_active_none : ¬Active none := by
  rintro ⟨keyData, hkey⟩
  cases hkey

lemma not_active_shredded (h : data.status = .shredded) : ¬Active (some data) := by
  rintro ⟨keyData, hkey⟩
  simp [KeyRegistry.getKeyForUser, h] at hkey

def shreddedAlone : List KeyRegistry.VersionEvent := [.start (.shredKeyForUser none), .act 0 .done]

theorem contexts_agree_shredded : ∃ data, Stored "ada" (some data) ∧ data.status = .shredded ∧
    ContextsAgree wrapping (holding "ada" (some data)) {} ⟨["ada", "bob", "ada"], none, none⟩ := by
  have h : ∃ c, Interleaving.Reachable Interleaving.free (KeyRegistry.noDocument "ada" 0) c ∧
      (c.state.doc.any fun data => data.status = .shredded) = true :=
    Interleaving.exists_reachable shreddedAlone _ (by decide)
  obtain ⟨c, hc, hshredded⟩ := h
  obtain ⟨data, hdoc, hstatus⟩ := (Option.any_eq_true _ _).mp hshredded
  have hstatus : data.status = .shredded := of_decide_eq_true hstatus
  have hstored : Stored "ada" (some data) := ⟨0, c, hc, hdoc⟩
  refine ⟨data, hstored, hstatus, (contexts_agree_iff wrapping (by decide +kernel) ?_).mpr ?_⟩
  · intro userId _
    by_cases huser : userId = "ada"
    · subst huser
      exact docs_holding ▸ hstored
    · exact docs_holding_ne huser ▸ stored_none
  · intro userId _
    by_cases huser : userId = "ada"
    · subst huser
      exact docs_holding ▸ not_active_shredded hstatus
    · exact docs_holding_ne huser ▸ not_active_none

/-- A key that is stored with version v2 is answered with version v1, alone and in a batch. -/
theorem contexts_report_default : ∃ data context, Stored "ada" (some data) ∧ data.encryptionVersion = some "v2" ∧
    Active (some data) ∧ context.encryptionVersion = "v1" ∧
    Replies wrapping (getEncryptionContext 0 {} "ada") (holding "ada" (some data)) (.sent 200 context) ∧
    Replies wrapping (batchEncryptionContext 0 {} ⟨["ada"], none, none⟩) (holding "ada" (some data))
      (.sent 200 (batchContexts [.found context])) ∧
    ¬ContextsAgree wrapping (holding "ada" (some data)) {} ⟨["ada"], none, none⟩ := by
  have h : ∃ c, Interleaving.Reachable Interleaving.free (KeyRegistry.noDocument "ada" 0) c ∧
      (c.state.doc.any fun data => data.status = .active ∧ data.activeDekId = some "v1" ∧
        data.deks.keys.length = 1 ∧ data.deks.lookup "v1" = some [1]) = true :=
    Interleaving.exists_reachable KeyRegistry.generatedAlone _ (by decide)
  obtain ⟨c, hc, hactive⟩ := h
  obtain ⟨data, hdoc, hactive⟩ := (Option.any_eq_true _ _).mp hactive
  obtain ⟨hstatus, hkeyId, hlength, hdek⟩ := of_decide_eq_true hactive
  have hstored : Stored "ada" (some data) := ⟨0, c, hc, hdoc⟩
  have hversion : data.encryptionVersion = some "v2" := KeyRegistry.hasVersion_of_stored hstored (hkeyId ▸ rfl)
  have hkey : KeyRegistry.getKeyForUser (some data) none = .ok (some ⟨[1], some "v1", "v2"⟩) := by
    simp [KeyRegistry.getKeyForUser, hstatus, hkeyId, hlength, hdek, hversion, truthy]
  obtain ⟨context, hreading, hdefault⟩ : ∃ context, readingOf "ada" (some data) = .ok (.found context) ∧
      context.encryptionVersion = "v1" := by
    have hgone : isGone data.status = false := by rw [hstatus]; rfl
    simp only [readingOf, KeyRegistry.getKeyStatus, Option.map_some, Option.filter_some, hgone, Bool.not_false, if_true,
      hkey]
    exact ⟨_, rfl, rfl⟩
  have hone := @replies_getEncryptionContext wrapping (holding "ada" (some data)) 0 "ada" {} (by decide +kernel)
  have hbatch := @replies_batchEncryptionContext wrapping (holding "ada" (some data)) 0 {} ⟨["ada"], none, none⟩
    (by decide +kernel)
  have hdocs : (holding "ada" (some data)).docs (getDocId (Headers.tenant {}) "ada") = some data := docs_holding
  have hdocs' : (holding "ada" (some data)).docs (getDocId (BatchBody.tenant ⟨["ada"], none, none⟩ {}) "ada") =
    some data := docs_holding
  rw [hdocs, hreading] at hone
  rw [List.map_singleton, hdocs', hreading] at hbatch
  refine ⟨data, context, hstored, hversion, ⟨_, hkey⟩, hdefault, hone, hbatch, fun hagree => ?_⟩
  obtain ⟨contexts, hreplies, hresults⟩ := hagree 0
  obtain ⟨-, rfl⟩ := Reply.sent.inj (hreplies.unique hbatch)
  obtain ⟨-, -, hcurrent⟩ := (List.forall₂_cons.mp hresults).1
  rw [hdocs'] at hcurrent
  obtain ⟨_, hcontext, _, _, _, hdata, -, ⟨-, -, hsame⟩, -⟩ := hcurrent ⟨_, hkey⟩
  obtain rfl := Option.some.inj hcontext
  obtain rfl := Option.some.inj hdata
  rw [hdefault] at hsame
  exact absurd (Option.some.inj (hversion.symm.trans hsame)) (by decide)

end Users

end ChameleonVault.Crypto
