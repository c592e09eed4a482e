import ChameleonVault.DecryptedViews.BatchDecrypt
import ChameleonVault.DecryptedViews.ShadowContents
import ChameleonVault.Deletion.ShredReplies
import ChameleonVault.Sql.Groupings

/-! One value looked up and decrypted on demand, beside the same value in the tenant's decrypted view. -/

namespace ChameleonVault.DecryptedViews

open Crypto Encoding Sql
open Deletion (Headers Reply tenant_ne)
open KeyRegistry (KeyMetadata getDocId truthy truthy_eq_some_iff)
open PiiRegistry (tablePath)

section Lookup

structure PiiVaultLookupParams where
  tenantId : String
  userId : String
  resourceId : String
  fieldName : String

def PiiVaultLookupParams.Selects (params : PiiVaultLookupParams) (row : VaultRow) : Prop :=
  row.tenantId = params.tenantId ∧ row.userId = params.userId ∧ row.resourceId = params.resourceId ∧
    row.fieldName = params.fieldName

/-- The row that a lookup reads: the latest one, where rows of the same time come in any order. -/
def IsLookup (rows : List VaultRow) (params : PiiVaultLookupParams) : Option VaultRow → Prop
  | none => ∀ row ∈ rows, ¬params.Selects row
  | some row => (row ∈ rows ∧ params.Selects row) ∧ ∀ row' ∈ rows, params.Selects row' → row'.syncedAt ≤ row.syncedAt

def rawCiphertext : Value → Option String
  | .text value => some value
  | _ => none

/-- What is found of the row that was read. -/
def findCiphertext (functions : Functions) (lookup : PiiVaultLookupParams → Option VaultRow)
    (params : PiiVaultLookupParams) : Option String :=
  (lookup params).bind fun row => rawCiphertext (functions.castText (.text row.encryptedValue))

structure DecryptBody where
  userId : Option String := none
  resourceId : Option String := none
  fieldName : Option String := none

structure RequestContext where
  correlationId : String
  analystEmail : Option String := none

/-- The event that a lookup leaves behind, whether or not a value was found. -/
structure AdHocDecrypt where
  userId : String
  tenantId : String
  source : String := "key-vault"
  destination : String := "pii-vault"
  eventType : String := "AD_HOC_DECRYPT_PERFORMED"
  operation : String := "AD_HOC_DECRYPT"
  resourceId : String
  fieldName : String
  correlationId : String
  analystEmail : Option String
  found : Bool

/-- `POST /pii-vault/decrypt`: its reply, and the event that it attempts to record before. -/
def decryptOnDemand (v : Vault) (findCiphertext : PiiVaultLookupParams → Except String (Option String))
    (context : RequestContext) (headers : Headers) (body : DecryptBody) : Reply (Option JsString) × Option AdHocDecrypt :=
  match truthy body.userId, truthy body.resourceId, truthy body.fieldName with
  | some userId, some resourceId, some fieldName =>
    match findCiphertext ⟨headers.tenant, userId, resourceId, fieldName⟩ with
    | .error _ => (.failed 500 "Lookup failed", none)
    | .ok rawCiphertext =>
      match v.decryptPiiVaultValue rawCiphertext (some userId) (some headers.tenant) with
      | .error error => (.failed 500 "Internal Server Error" error, none)
      | .ok value => (.sent 200 value, some {
          userId, tenantId := headers.tenant, resourceId, fieldName, correlationId := context.correlationId
          analystEmail := context.analystEmail, found := value.isSome })
  | _, _, _ => (.failed 400 "userId, resourceId, and fieldName are all required", none)

end Lookup

section View

def viewQuery (service : DecryptedViewService) (input : DeclareViewInput) : GroupedBy where
  keys := ["user_id", "tenant_id"]
  columns := input.declaredFields.map (pivotColumn service.batchDecryptFunctionRef)
  table := tablePath service.piiVault
  filter := ("tenant_id", input.tenantId)

variable {service : DecryptedViewService} {input : DeclareViewInput}

lemma tokens_viewQuery (hne : input.declaredFields ≠ []) : (viewQuery service input).tokens = viewTokens service input := by
  have hselect : Texts.viewColumns.tokens = [.keyword "SELECT", .identifier "user_id", .symbol ',',
    .identifier "tenant_id", .symbol ','] := by decide +kernel
  have hgap : Texts.gap.tokens = [] := by decide +kernel
  have hfrom : Texts.fromTable.tokens = [.keyword "FROM"] := by decide +kernel
  have hwhere : Texts.whereTenant.tokens = [.keyword "WHERE", .identifier "tenant_id", .symbol '='] := by decide +kernel
  have hpivots := @tokens_listed (pivot service.batchDecryptFunctionRef) Texts.gap .newline input.declaredFields _
    (fun _ _ => tokens_pivot) hgap hne
  have hcolumns : separated ([.identifier "user_id"] :: [.identifier "tenant_id"] :: input.declaredFields.map fun field =>
      (pivotColumn service.batchDecryptFunctionRef field).tokens) = .identifier "user_id" :: .symbol ',' ::
        .identifier "tenant_id" :: .symbol ',' ::
          separated (input.declaredFields.map fun field => (pivotColumn service.batchDecryptFunctionRef field).tokens) := by
    obtain ⟨field, fields, hfields⟩ := List.exists_cons_of_ne_nil hne
    simp [separated, hfields, List.intercalate_cons_cons]
  have hkeys : separated [[.identifier "user_id"], [.identifier "tenant_id"]] =
      [.identifier "user_id", .symbol ',', .identifier "tenant_id"] := rfl
  rw [viewTokens, viewPieces, GroupedBy.tokens, viewQuery]
  simp only [List.cons_append, List.nil_append, List.flatMap_append, List.flatMap_cons, List.flatMap_nil, List.map_map,
    List.map_cons, List.map_nil, Function.comp_def, hcolumns, hpivots, hkeys]
  simp [Piece.tokens, quotedName, literal, contents, hselect, hfrom, hwhere, Separator.newline]

/-- What the text of the view reads as is the query, exactly when what is written into it is harmless. -/
lemma lex_viewQuery_iff (hne : input.declaredFields ≠ []) :
    lex (service.buildViewSql input) = some (viewQuery service input).tokens ↔
      (Plain .back service.batchDecryptFunctionRef.toList ∧ Plain .back (tablePath service.piiVault).toList) ∧
      (∀ field ∈ input.declaredFields, Usable field) ∧ Plain .single input.tenantId.toList := by
  rw [tokens_viewQuery hne]
  exact lex_buildViewSql_iff hne

end View

section Decryption

def valueOf (reply : Option JsString) : Value :=
  reply.elim .null fun units => .text (String.ofList (Utf16.chars units))

def VaultRow.call (row : VaultRow) : RemoteCall := [some row.encryptedValue, some row.userId, some row.tenantId]

/-- The warehouse's function answers with what the batch route replies, and a text is cast to itself. -/
structure Decrypts (v : Vault) (functions : Functions) (batchDecryptFunctionRef : String) : Prop where
  castText (text : String) : functions.castText (.text text) = .text text
  call {row : VaultRow} {reply : Option JsString} : v.decryptCall row.call = .ok reply →
    functions.call batchDecryptFunctionRef [.text row.encryptedValue, .text row.userId, .text row.tenantId] = valueOf reply

/-- The lookup of the row's key does not throw. -/
def Vault.AnswersRow (v : Vault) (row : VaultRow) : Prop := ∀ parsed ∈ row.call.row, v.Answerable parsed

/-- The view can be read: no row of the tenant makes a batch fail. -/
def Vault.AnswersTenant (v : Vault) (rows : List VaultRow) (tenantId : String) : Prop :=
  ∀ row ∈ rows, row.tenantId = tenantId → v.AnswersRow row

variable {v : Vault} {functions : Functions} {batchDecryptFunctionRef field : String} {rows : List VaultRow}
  {row : VaultRow} {reply : Option JsString} {params : PiiVaultLookupParams}

lemma valueOf_ne_null : valueOf reply ≠ .null ↔ reply ≠ none := by
  cases reply <;> simp [valueOf]

lemma rowReply_of_forgotten (hkey : ∀ data, v.docs (getDocId row.tenantId row.userId) = some data → ¬KeepsKeys data)
    (htenant : row.tenantId ≠ "") : v.rowReply row.call = none := by
  cases hrow : row.call.row with
  | none => exact rowReply_of_unreadable (.malformed hrow)
  | some parsed =>
    have hdoc : parsed.docId = getDocId row.tenantId row.userId := by
      have hparse : parseRow (some row.encryptedValue) (some row.userId) (some row.tenantId) = some parsed := hrow
      rw [parseRow] at hparse
      simp only [Option.bind_eq_bind, Option.bind_eq_some_iff] at hparse
      obtain ⟨raw, -, userId, huser, parts, -, hparsed⟩ := hparse
      obtain ⟨huser, -⟩ := truthy_eq_some_iff.mp huser
      have htruthy : truthy (some row.tenantId) = some row.tenantId := truthy_eq_some_iff.mpr ⟨rfl, htenant⟩
      obtain rfl := Option.some.inj hparsed
      rw [Row.docId, htruthy, ← Option.some.inj huser]
      rfl
    cases hdata : v.docs parsed.docId with
    | none => exact rowReply_of_unreadable (.unknownUser hrow hdata)
    | some data => exact rowReply_of_unreadable (.shredded hrow hdata (hkey data (hdoc ▸ hdata)))

lemma decryptCall_of_answers (h : v.AnswersRow row) : v.decryptCall row.call = .ok (v.rowReply row.call) :=
  decryptCall_eq_iff.mpr h

lemma decryptCall_of_not_answers (h : ¬v.AnswersRow row) : ∃ error, v.decryptCall row.call = .error error := by
  cases hcall : v.decryptCall row.call with
  | error error => exact ⟨error, rfl⟩
  | ok reply =>
    refine absurd (decryptCall_eq_iff.mp ?_) h
    simp [Vault.rowReply, hcall, Except.toOption]

lemma valueOf_pivot (hd : Decrypts v functions batchDecryptFunctionRef) (hrow : v.AnswersRow row) :
    (pivotColumn batchDecryptFunctionRef field).valueOf functions (piiVault rows) row =
      if row.fieldName = field then valueOf (v.rowReply row.call) else .null := by
  have hcall := hd.call (decryptCall_of_answers hrow)
  simp [Latest.valueOf, pivotColumn, Expression.eval, Scalar.eval, piiVault, VaultRow.read, hd.castText, hcall]

end Decryption

section Beside

variable {service : DecryptedViewService} {input : DeclareViewInput} {v : Vault} {functions : Functions}
  {rows : List VaultRow} {groups : List (KeyedGroup VaultRow)} {row own : VaultRow} {params : PiiVaultLookupParams}
  {found shown : Option VaultRow} {lookup : PiiVaultLookupParams → Option VaultRow}

/-- A row that the view can show for the user and the field, whichever resource it was synced from. -/
structure PiiVaultLookupParams.Readable (params : PiiVaultLookupParams) (v : Vault) (row : VaultRow) : Prop where
  tenantId : row.tenantId = params.tenantId
  userId : row.userId = params.userId
  fieldName : row.fieldName = params.fieldName
  reply : v.rowReply row.call ≠ none

def shownRowOf (service : DecryptedViewService) (groups : List (KeyedGroup VaultRow)) (params : PiiVaultLookupParams) :
    Option VaultRow :=
  shownFor groups [.text params.userId, .text params.tenantId]
    (pivotColumn service.batchDecryptFunctionRef params.fieldName)

def cellOf (service : DecryptedViewService) (functions : Functions) (rows : List VaultRow)
    (groups : List (KeyedGroup VaultRow)) (params : PiiVaultLookupParams) : Value :=
  (shownRowOf service groups params).elim .null
    ((pivotColumn service.batchDecryptFunctionRef params.fieldName).valueOf functions (piiVault rows))

/-- What is decrypted on demand beside what the view shows for the same user and field. -/
structure Beside (v : Vault) (rows : List VaultRow) (params : PiiVaultLookupParams) (found shown : Option VaultRow)
    (page : Option JsString) (cell : Value) : Prop where
  fromFound : page = found.bind fun row => v.rowReply row.call
  fromShown : cell = valueOf (shown.bind fun row => v.rowReply row.call)
  upToDate : page ≠ none → ∃ own ∈ found, ∃ row ∈ shown, own.syncedAt ≤ row.syncedAt
  own : ∀ row ∈ shown, row.resourceId = params.resourceId →
    ∃ own ∈ found, row.syncedAt ≤ own.syncedAt ∧ (page ≠ none → own.syncedAt = row.syncedAt)
  agree : (∀ row ∈ rows, ∀ row' ∈ rows, params.Selects row → params.Selects row' → row.syncedAt = row'.syncedAt →
      row.encryptedValue = row'.encryptedValue) →
    ∀ row ∈ shown, row.resourceId = params.resourceId → page ≠ none → cell = valueOf page
  forgotten : (∀ data, v.docs (getDocId params.tenantId params.userId) = some data → ¬KeepsKeys data) →
    page = none ∧ cell = .null

lemma mem_rows_iff (hd : Decrypts v functions service.batchDecryptFunctionRef)
    (hanswers : v.AnswersTenant rows input.tenantId) (htenant : input.tenantId = params.tenantId) :
    row ∈ (viewQuery service input).rows (piiVault rows) [.text params.userId, .text params.tenantId] ∧
        (pivotColumn service.batchDecryptFunctionRef params.fieldName).valueOf functions (piiVault rows) row ≠ .null ↔
      row ∈ rows ∧ params.Readable v row := by
  rw [GroupedBy.mem_rows]
  simp only [viewQuery, GroupedBy.keyOf, List.map_cons, List.map_nil, piiVault, VaultRow.read, List.cons.injEq,
    Value.text.injEq, and_true]
  constructor
  · rintro ⟨⟨hrow, hinput, huser, htenant'⟩, hvalue⟩
    have hpivot := @valueOf_pivot v functions _ params.fieldName rows row hd (hanswers row hrow hinput)
    simp only [piiVault] at hpivot
    rw [hpivot] at hvalue
    by_cases hfield : row.fieldName = params.fieldName
    · rw [if_pos hfield] at hvalue
      exact ⟨hrow, htenant', huser, hfield, valueOf_ne_null.mp hvalue⟩
    · rw [if_neg hfield] at hvalue
      exact absurd rfl hvalue
  · rintro ⟨hrow, htenant', huser, hfield, hreply⟩
    have hinput : row.tenantId = input.tenantId := htenant'.trans htenant.symm
    have hpivot := @valueOf_pivot v functions _ params.fieldName rows row hd (hanswers row hrow hinput)
    simp only [piiVault] at hpivot
    refine ⟨⟨hrow, hinput, huser, htenant'⟩, ?_⟩
    rw [hpivot, if_pos hfield]
    exact valueOf_ne_null.mpr hreply

/-- The row that is shown of those that can be: the latest one, where rows of the same time come in any order. -/
def IsShown (v : Vault) (rows : List VaultRow) (params : PiiVaultLookupParams) : Option VaultRow → Prop
  | none => ∀ row ∈ rows, ¬params.Readable v row
  | some row => (row ∈ rows ∧ params.Readable v row) ∧
      ∀ row' ∈ rows, params.Readable v row' → row'.syncedAt ≤ row.syncedAt

lemma isShown_shownRowOf (hd : Decrypts v functions service.batchDecryptFunctionRef)
    (hanswers : v.AnswersTenant rows input.tenantId) (htenant : input.tenantId = params.tenantId)
    (hgroups : (viewQuery service input).Answers functions (piiVault rows) groups)
    (hfield : params.fieldName ∈ input.declaredFields) : IsShown v rows params (shownRowOf service groups params) := by
  have hcolumn : pivotColumn service.batchDecryptFunctionRef params.fieldName ∈ (viewQuery service input).columns :=
    List.mem_map_of_mem hfield
  have hshows := @GroupedBy.Answers.shows _ _ _ _ _ [.text params.userId, .text params.tenantId] _ hgroups hcolumn
  rw [← shownRowOf] at hshows
  cases hshown : shownRowOf service groups params with
  | none =>
    rw [hshown] at hshows
    intro row hrow hreadable
    obtain ⟨hgroup, hvalue⟩ := (mem_rows_iff hd hanswers htenant).mpr ⟨hrow, hreadable⟩
    exact hvalue (hshows row hgroup)
  | some row =>
    rw [hshown] at hshows
    obtain ⟨hmem, hlatest⟩ := hshows
    refine ⟨(mem_rows_iff hd hanswers htenant).mp hmem, fun row' hrow' hreadable => ?_⟩
    obtain ⟨hgroup, hvalue⟩ := (mem_rows_iff hd hanswers htenant).mpr ⟨hrow', hreadable⟩
    exact WithBot.coe_le_coe.mp (hlatest row' hgroup hvalue)

lemma cellOf_eq (hd : Decrypts v functions service.batchDecryptFunctionRef)
    (hanswers : v.AnswersTenant rows input.tenantId) (htenant : input.tenantId = params.tenantId)
    (hshown : IsShown v rows params (shownRowOf service groups params)) :
    cellOf service functions rows groups params =
      valueOf ((shownRowOf service groups params).bind fun row => v.rowReply row.call) := by
  rw [cellOf]
  cases hrow : shownRowOf service groups params with
  | none => rfl
  | some row =>
    rw [hrow] at hshown
    obtain ⟨⟨hmem, hreadable⟩, -⟩ := hshown
    have hpivot := @valueOf_pivot v functions _ params.fieldName rows row hd
      (hanswers row hmem (hreadable.tenantId.trans htenant.symm))
    rw [if_pos hreadable.fieldName] at hpivot
    exact hpivot

lemma PiiVaultLookupParams.Readable.selects (h : params.Readable v row) (hresource : row.resourceId = params.resourceId) :
    params.Selects row :=
  ⟨h.tenantId, h.userId, hresource, h.fieldName⟩

/-- The row that is found can be shown, so the row that is shown is at least as recent. -/
lemma exists_shown (hown : IsLookup rows params (some own)) (hreply : v.rowReply own.call ≠ none)
    (hshown : IsShown v rows params shown) : ∃ row ∈ shown, own.syncedAt ≤ row.syncedAt := by
  obtain ⟨⟨hmem, htenant, huser, -, hfield⟩, -⟩ := hown
  have hreadable : params.Readable v own := ⟨htenant, huser, hfield, hreply⟩
  cases shown with
  | none => exact absurd hreadable (hshown own hmem)
  | some row => exact ⟨row, rfl, hshown.2 own hmem hreadable⟩

/-- A row of the resource that is shown can be found, so the row that is found is at least as recent. -/
lemma exists_found (hshown : IsShown v rows params (some row)) (hresource : row.resourceId = params.resourceId)
    (hfound : IsLookup rows params found) : ∃ own ∈ found, row.syncedAt ≤ own.syncedAt := by
  obtain ⟨⟨hmem, hreadable⟩, -⟩ := hshown
  have hselects := hreadable.selects hresource
  cases found with
  | none => exact absurd hselects (hfound row hmem)
  | some own => exact ⟨own, rfl, hfound.2 row hmem hselects⟩

lemma syncedAt_eq (hown : IsLookup rows params (some own)) (hreply : v.rowReply own.call ≠ none)
    (hshown : IsShown v rows params (some row)) (hresource : row.resourceId = params.resourceId) :
    own.syncedAt = row.syncedAt := by
  obtain ⟨row', hrow', hle⟩ := exists_shown hown hreply hshown
  obtain ⟨own', hown', hle'⟩ := exists_found hshown hresource hown
  obtain rfl := Option.some.inj hrow'
  obtain rfl := Option.some.inj hown'
  exact le_antisymm hle hle'

lemma rowReply_forgotten
    (hforgotten : ∀ data, v.docs (getDocId params.tenantId params.userId) = some data → ¬KeepsKeys data)
    (hne : params.tenantId ≠ "") (htenant : row.tenantId = params.tenantId) (huser : row.userId = params.userId) :
    v.rowReply row.call = none := by
  refine rowReply_of_forgotten ?_ (htenant ▸ hne)
  rw [htenant, huser]
  exact hforgotten

def PiiVaultLookupParams.event (params : PiiVaultLookupParams) (context : RequestContext) (page : Option JsString) :
    AdHocDecrypt where
  userId := params.userId
  tenantId := params.tenantId
  resourceId := params.resourceId
  fieldName := params.fieldName
  correlationId := context.correlationId
  analystEmail := context.analystEmail
  found := page.isSome

lemma call_congr {row' : VaultRow} (h : params.Selects row) (h' : params.Selects row')
    (hvalue : row.encryptedValue = row'.encryptedValue) : row.call = row'.call := by
  rw [VaultRow.call, VaultRow.call, hvalue, h.1, h.2.1, h'.1, h'.2.1]

lemma beside_of_rows {page : Option JsString} {cell : Value} (hfound : IsLookup rows params found)
    (hshown : IsShown v rows params shown) (htenant : params.tenantId ≠ "")
    (hpage : page = found.bind fun row => v.rowReply row.call)
    (hcell : cell = valueOf (shown.bind fun row => v.rowReply row.call)) : Beside v rows params found shown page cell where
  fromFound := hpage
  fromShown := hcell
  upToDate hne := by
    cases found with
    | none => exact absurd hpage hne
    | some own =>
      obtain ⟨row, hrow, hle⟩ := exists_shown hfound (fun hnone => hne (hpage.trans hnone)) hshown
      exact ⟨own, rfl, row, hrow, hle⟩
  own row hrow hresource := by
    obtain rfl := Option.mem_def.mp hrow
    obtain ⟨own, rfl, hle⟩ := exists_found hshown hresource hfound
    exact ⟨own, rfl, hle, fun hne => syncedAt_eq hfound (fun hnone => hne (hpage.trans hnone)) hshown hresource⟩
  agree hdistinct row hrow hresource hne := by
    obtain rfl := Option.mem_def.mp hrow
    obtain ⟨own, rfl, -⟩ := exists_found hshown hresource hfound
    have htime := syncedAt_eq hfound (fun hnone => hne (hpage.trans hnone)) hshown hresource
    obtain ⟨⟨hmem, hselects⟩, -⟩ := hfound
    obtain ⟨⟨hmem', hreadable⟩, -⟩ := hshown
    have hselects' := hreadable.selects hresource
    have hvalue := hdistinct own hmem row hmem' hselects hselects' htime
    rw [hcell, hpage, Option.bind_some, Option.bind_some, call_congr hselects hselects' hvalue]
  forgotten hforgotten := by
    constructor
    · cases found with
      | none => exact hpage
      | some own =>
        obtain ⟨⟨-, htenant', huser, -⟩, -⟩ := hfound
        exact hpage.trans (rowReply_forgotten hforgotten htenant htenant' huser)
    · cases shown with
      | none => exact hcell
      | some row =>
        obtain ⟨⟨-, hreadable⟩, -⟩ := hshown
        exact absurd (rowReply_forgotten hforgotten htenant hreadable.tenantId hreadable.userId) hreadable.reply

lemma decryptOnDemand_eq {context : RequestContext} {headers : Headers}
    (hlookup : IsLookup rows params (lookup params)) (hd : Decrypts v functions service.batchDecryptFunctionRef)
    (hheaders : headers.tenant = params.tenantId)
    (huser : params.userId ≠ "") (hresource : params.resourceId ≠ "") (hfield : params.fieldName ≠ "") :
    decryptOnDemand v (fun params => .ok (findCiphertext functions lookup params)) context headers
        ⟨some params.userId, some params.resourceId, some params.fieldName⟩ =
      match (lookup params).elim (.ok none) fun row => v.decryptCall row.call with
      | .error error => (.failed 500 "Internal Server Error" error, none)
      | .ok page => (.sent 200 page, some (params.event context page)) := by
  have huser : truthy (some params.userId) = some params.userId := truthy_eq_some_iff.mpr ⟨rfl, huser⟩
  have hresource : truthy (some params.resourceId) = some params.resourceId := truthy_eq_some_iff.mpr ⟨rfl, hresource⟩
  have hfield : truthy (some params.fieldName) = some params.fieldName := truthy_eq_some_iff.mpr ⟨rfl, hfield⟩
  have hvalue : v.decryptPiiVaultValue (findCiphertext functions lookup params) (some params.userId)
      (some params.tenantId) = (lookup params).elim (.ok none) fun row => v.decryptCall row.call := by
    rw [findCiphertext]
    cases hfound : lookup params with
    | none => rfl
    | some row =>
      rw [hfound] at hlookup
      obtain ⟨⟨-, htenant, hid, -⟩, -⟩ := hlookup
      rw [Option.bind_some, hd.castText, ← htenant, ← hid]
      rfl
  simp only [decryptOnDemand, huser, hresource, hfield, hheaders, hvalue, PiiVaultLookupParams.event]

/-- What the request replies: what its row still holds, with the event, unless the lookup of that row's key throws. -/
def Replies (v : Vault) (context : RequestContext) (params : PiiVaultLookupParams) (found : Option VaultRow)
    (page : Option JsString) (reply : Reply (Option JsString) × Option AdHocDecrypt) : Prop :=
  ((∀ row ∈ found, v.AnswersRow row) → reply = (.sent 200 page, some (params.event context page))) ∧
    ∀ row ∈ found, ¬v.AnswersRow row → ∃ error, reply = (.failed 500 "Internal Server Error" error, none)

lemma replies_decryptOnDemand {context : RequestContext} {headers : Headers}
    (hlookup : IsLookup rows params (lookup params)) (hd : Decrypts v functions service.batchDecryptFunctionRef)
    (hheaders : headers.tenant = params.tenantId)
    (huser : params.userId ≠ "") (hresource : params.resourceId ≠ "") (hfield : params.fieldName ≠ "") :
    Replies v context params (lookup params) ((lookup params).bind fun row => v.rowReply row.call)
      (decryptOnDemand v (fun params => .ok (findCiphertext functions lookup params)) context headers
        ⟨some params.userId, some params.resourceId, some params.fieldName⟩) := by
  rw [decryptOnDemand_eq hlookup hd hheaders huser hresource hfield]
  cases lookup params with
  | none => exact ⟨fun _ => rfl, fun row hrow => by cases hrow⟩
  | some row =>
    simp only [Option.elim_some, Option.bind_some]
    constructor
    · intro hanswers
      rw [decryptCall_of_answers (hanswers row rfl)]
    · rintro row' hrow hthrows
      obtain rfl := Option.some.inj hrow
      obtain ⟨error, herror⟩ := decryptCall_of_not_answers hthrows
      exact ⟨some error, by rw [herror]⟩

theorem lookup_beside_view {context : RequestContext} {headers : Headers}
    (hlookup : ∀ params, IsLookup rows params (lookup params))
    (hd : Decrypts v functions service.batchDecryptFunctionRef)
    (hgroups : (viewQuery service input).Answers functions (piiVault rows) groups)
    (htenant : input.tenantId = params.tenantId) (hheaders : headers.tenant = params.tenantId)
    (hfield : params.fieldName ∈ input.declaredFields)
    (hpresent : params.userId ≠ "" ∧ params.resourceId ≠ "" ∧ params.fieldName ≠ "") :
    (lex (service.buildViewSql input) = some (viewQuery service input).tokens ↔
      (Plain .back service.batchDecryptFunctionRef.toList ∧ Plain .back (tablePath service.piiVault).toList) ∧
      (∀ field ∈ input.declaredFields, Usable field) ∧ Plain .single input.tenantId.toList) ∧
    ∃ page, Replies v context params (lookup params) page
        (decryptOnDemand v (fun params => .ok (findCiphertext functions lookup params)) context headers
          ⟨some params.userId, some params.resourceId, some params.fieldName⟩) ∧
      (v.AnswersTenant rows input.tenantId → Beside v rows params (lookup params) (shownRowOf service groups params) page
        (cellOf service functions rows groups params)) := by
  obtain ⟨huser, hresource, hname⟩ := hpresent
  refine ⟨lex_viewQuery_iff (List.ne_nil_of_mem hfield), _,
    replies_decryptOnDemand (hlookup params) hd hheaders huser hresource hname, fun hanswers => ?_⟩
  have hshown := isShown_shownRowOf hd hanswers htenant hgroups hfield
  have hcell := cellOf_eq hd hanswers htenant hshown
  exact beside_of_rows (hlookup params) hshown (hheaders ▸ tenant_ne headers) rfl hcell

end Beside

section Samples

/-- A warehouse whose function is this vault's batch route. -/
def connected (v : Vault) : Functions where
  call _ arguments := match arguments with
    | [.text rawCiphertext, .text userId, .text tenantId] =>
      valueOf (v.rowReply [some rawCiphertext, some userId, some tenantId])
    | _ => .null
  castText := id

instance (params : PiiVaultLookupParams) (row : VaultRow) : Decidable (params.Selects row) :=
  inferInstanceAs (Decidable (_ ∧ _))

def latestOf (rows : List VaultRow) (params : PiiVaultLookupParams) : Option VaultRow :=
  ((rows.filter params.Selects).mergeSort fun row row' => row'.syncedAt ≤ row.syncedAt).head?

variable {v : Vault} {rows : List VaultRow} {params : PiiVaultLookupParams}

lemma decrypts_connected (batchDecryptFunctionRef : String) : Decrypts v (connected v) batchDecryptFunctionRef where
  castText _ := rfl
  call {row reply} h := by
    have hreply : v.rowReply row.call = reply := by rw [Vault.rowReply, h, Except.toOption, Option.join_some]
    rw [← hreply]
    rfl

lemma isLookup_latestOf : IsLookup rows params (latestOf rows params) := by
  have hmem : ∀ row, row ∈ (rows.filter params.Selects).mergeSort (fun row row' => row'.syncedAt ≤ row.syncedAt) ↔
      row ∈ rows ∧ params.Selects row := by
    intro row
    rw [List.mem_mergeSort, List.mem_filter, decide_eq_true_iff]
  have hsorted := @List.pairwise_mergeSort _ (fun row row' : VaultRow => decide (row'.syncedAt ≤ row.syncedAt))
    (fun a b c hab hbc => by simp only [decide_eq_true_eq] at *; omega)
    (fun a b => by simp only [Bool.or_eq_true, decide_eq_true_eq]; omega) (rows.filter params.Selects)
  rw [latestOf]
  cases hlist : (rows.filter params.Selects).mergeSort fun row row' => row'.syncedAt ≤ row.syncedAt with
  | nil =>
    intro row hrow hselects
    have hnil := (hmem row).mpr ⟨hrow, hselects⟩
    rw [hlist] at hnil
    cases hnil
  | cons row rest =>
    rw [hlist] at hmem hsorted
    refine ⟨(hmem row).mp List.mem_cons_self, fun row' hrow' hselects' => ?_⟩
    rcases List.mem_cons.mp ((hmem row').mpr ⟨hrow', hselects'⟩) with rfl | hrest
    · exact le_refl _
    · exact of_decide_eq_true ((List.pairwise_cons.mp hsorted).1 row' hrest)

def syncedRow (userId resourceId value : String) (syncedAt : ℤ) : VaultRow :=
  ⟨"acme", userId, resourceId, "email", "v1", "t1", value, syncedAt⟩

def syncedRows : List VaultRow :=
  [syncedRow "u1" "bigquery:p.d.users" "v1:AA==:AXUBMQBoaQAAAAAAAAAAAAAAAAAAAAA=" 1,
    syncedRow "u1" "bigquery:p.d.users" "v1:AA==:AAAA" 3, syncedRow "u1" "bigquery:p.d.contacts" "no colons" 2,
    syncedRow "u2" "bigquery:p.d.users" "v1:AA==:AAAA" 1]

def syncedEmail (userId : String) : PiiVaultLookupParams := ⟨"acme", userId, "bigquery:p.d.users", "email"⟩

theorem lookup_beside_view_synced : ∃ groups,
    (viewQuery viewService (viewInput "acme")).Answers (connected sampleVault) (piiVault syncedRows) groups ∧
    ∃ page, Replies sampleVault ⟨"c1", none⟩ (syncedEmail "u1") (latestOf syncedRows (syncedEmail "u1")) page
        (decryptOnDemand sampleVault
          (fun params => .ok (findCiphertext (connected sampleVault) (latestOf syncedRows) params)) ⟨"c1", none⟩
          ⟨some "acme", none⟩ ⟨some "u1", some "bigquery:p.d.users", some "email"⟩) ∧
      Beside sampleVault syncedRows (syncedEmail "u1") (latestOf syncedRows (syncedEmail "u1"))
        (shownRowOf viewService groups (syncedEmail "u1")) page
        (cellOf viewService (connected sampleVault) syncedRows groups (syncedEmail "u1")) := by
  have hanswers : sampleVault.AnswersTenant syncedRows "acme" := by
    have hrows : ∀ row ∈ syncedRows, ∀ parsed ∈ row.call.row, sampleVault.Answerable parsed := by decide +kernel
    exact fun row hrow _ => hrows row hrow
  obtain ⟨groups, hgroups⟩ := GroupedBy.exists_answers (connected sampleVault) (piiVault syncedRows)
    (viewQuery viewService (viewInput "acme"))
  have hpresent : "u1" ≠ "" ∧ "bigquery:p.d.users" ≠ "" ∧ "email" ≠ "" := by decide
  have htenant : Headers.tenant ⟨some "acme", none⟩ = "acme" := by decide +kernel
  refine ⟨groups, hgroups, ?_⟩
  obtain ⟨-, page, hreplies, hbeside⟩ := @lookup_beside_view viewService (viewInput "acme") _ _ _ _ (syncedEmail "u1") _ _ _
    (fun _ => isLookup_latestOf) (decrypts_connected _) hgroups rfl htenant List.mem_cons_self hpresent
  exact ⟨page, hreplies, hbeside hanswers⟩

end Samples

end ChameleonVault.DecryptedViews
