import ChameleonVault.DecryptedViews.ShadowSql
import ChameleonVault.Sql.Queries

/-! Which of the values in the vault a deidentified view shows. -/

namespace ChameleonVault.DecryptedViews

open Sql
open Sql.Piece (fixed name column)
open KeyRegistry (truthy truthy_eq_some_iff)
open Deletion (isSafeIdentifier)
open PiiRegistry (ShadowView SourceRedactionService PiiRegistryEntry encryptedFieldsOf ensureShadowCopy
  ensureShadowCopy_ok_iff ensureShadowCopy_some tablePath viewsEnabled)

section Queries

def pivotColumn (batchDecryptFunctionRef field : String) : Latest where
  value := .ifEqual (.column "field_name") (.text field)
    (.call batchDecryptFunctionRef [.castText "encrypted_value", .column "user_id", .column "tenant_id"])
    (.scalar .null)
  time := "synced_at"
  name := field

def shadowQuery (view : ShadowView) : Enriched where
  common := "decrypted_pii"
  grouped := {
    key := "user_id"
    columns := view.fields.map (pivotColumn view.batchDecryptFunctionRef)
    table := tablePath view.piiVault
    filter := ("tenant_id", view.tenantId) }
  table := tablePath view.source
  on := view.userIdColumn
  filter := (truthy view.tenantIdColumn).map (·, view.tenantId)

variable {view : ShadowView} {redaction : SourceRedactionService} {resource : PiiRegistryEntry}
  {batchDecryptFunctionRef field : String} {separator : Separator}

lemma pivotColumn_name : (pivotColumn batchDecryptFunctionRef field).name = field := rfl

lemma tokens_pivot : (pivot batchDecryptFunctionRef field separator).flatMap Piece.tokens =
    (pivotColumn batchDecryptFunctionRef field).tokens ++ separator.tokens := by
  have haggregate : Texts.aggregate.tokens = [.identifier "ARRAY_AGG", .symbol '(', .keyword "IF", .symbol '(',
    .identifier "field_name", .symbol '='] := by decide +kernel
  have hnext : Texts.next.tokens = [.symbol ','] := by decide +kernel
  have hcast : Texts.castValue.tokens = [.symbol '(', .keyword "CAST", .symbol '(', .identifier "encrypted_value",
    .keyword "AS", .identifier "STRING", .symbol ')', .symbol ','] := by decide +kernel
  have hcall : Texts.callEnd.tokens = [.identifier "user_id", .symbol ',', .identifier "tenant_id", .symbol ')',
    .symbol ',', .keyword "NULL", .symbol ')'] := by decide +kernel
  have hlatest : Texts.latest.tokens = [.keyword "IGNORE", .keyword "NULLS", .keyword "ORDER", .keyword "BY",
    .identifier "synced_at"] := by decide +kernel
  have hname : Texts.asName.tokens = [.keyword "DESC", .keyword "LIMIT", .number "1", .symbol ')', .symbol '[',
    .identifier "SAFE_OFFSET", .symbol '(', .number "0", .symbol ')', .symbol ']', .keyword "AS"] := by decide +kernel
  simp [pivot, pivotColumn, Latest.tokens, Expression.tokens, Scalar.tokens, separated, Piece.tokens, contents, literal,
    quotedName, haggregate, hnext, hcast, hcall, hlatest, hname]

lemma tokens_listed {item : String → Separator → List Piece} {gap : Fixed} {last : Separator} {fields : List String}
    {tokens : String → List Token} (hitem : ∀ field separator, (item field separator).flatMap Piece.tokens =
      tokens field ++ separator.tokens) (hgap : gap.tokens = []) (hne : fields ≠ []) :
    (listed item gap last fields).flatMap Piece.tokens = separated (fields.map tokens) ++ last.tokens := by
  induction fields with
  | nil => exact absurd rfl hne
  | cons field fields ih =>
    cases fields with
    | nil => simp [listed, separated, hitem]
    | cons following fields =>
      have htail := ih (List.cons_ne_nil _ _)
      rw [listed, List.flatMap_append, hitem, List.flatMap_cons, htail]
      · simp [separated, Piece.tokens, hgap, Separator.comma, List.intercalate_cons_cons]
      · intro h
        cases h

lemma tokens_shadowQuery (hne : view.fields ≠ []) : (shadowQuery view).tokens = shadowTokens view := by
  have hwith : Texts.withPii.tokens = [.keyword "WITH", .identifier "decrypted_pii", .keyword "AS", .symbol '(',
    .keyword "SELECT", .identifier "user_id", .symbol ','] := by decide +kernel
  have hinner : Texts.innerGap.tokens = [] := by decide +kernel
  have hfrom : Texts.innerFrom.tokens = [.keyword "FROM"] := by decide +kernel
  have hwhere : Texts.innerWhere.tokens = [.keyword "WHERE", .identifier "tenant_id", .symbol '='] := by decide +kernel
  have hselect : Texts.outerSelect.tokens = [.keyword "GROUP", .keyword "BY", .identifier "user_id", .symbol ')',
    .keyword "SELECT", .identifier "s", .symbol '.', .symbol '*', .keyword "EXCEPT", .symbol '('] := by decide +kernel
  have hblank : Texts.blank.tokens = [] := by decide +kernel
  have hnext : Texts.next.tokens = [.symbol ','] := by decide +kernel
  have hd : Texts.fromPii.tokens = [.identifier "d", .symbol '.'] := by decide +kernel
  have htable : Texts.fromTable.tokens = [.keyword "FROM"] := by decide +kernel
  have hjoin : Texts.joinPii.tokens = [.identifier "s", .keyword "LEFT", .keyword "JOIN", .identifier "decrypted_pii",
    .identifier "d", .keyword "ON", .identifier "s", .symbol '.'] := by decide +kernel
  have huser : Texts.onUserWhere.tokens = [.symbol '=', .identifier "d", .symbol '.', .identifier "user_id",
    .keyword "WHERE", .identifier "s", .symbol '.'] := by decide +kernel
  have hequals : Texts.equals.tokens = [.symbol '='] := by decide +kernel
  have hcolumn : nameToken "user_id" = .identifier "user_id" := by decide +kernel
  have hpivots := @tokens_listed (pivot view.batchDecryptFunctionRef) Texts.innerGap .newline view.fields _
    (fun _ _ => tokens_pivot) hinner hne
  have hexcept := @tokens_listed (fun field separator => [name field separator]) Texts.blank .closing view.fields
    (fun field => [.identifier field]) (fun _ _ => by simp [Piece.tokens]) hblank hne
  have hjoined := @tokens_listed (fun field separator => [fixed Texts.fromPii, column field separator]) Texts.blank
    .newline view.fields (fun field => [.identifier "d", .symbol '.', nameToken field])
    (fun _ _ => by simp [Piece.tokens, hd]) hblank hne
  have hcolumns : separated ([.identifier "user_id"] :: view.fields.map fun field =>
      (pivotColumn view.batchDecryptFunctionRef field).tokens) = .identifier "user_id" :: .symbol ',' ::
        separated (view.fields.map fun field => (pivotColumn view.batchDecryptFunctionRef field).tokens) := by
    obtain ⟨field, fields, hfields⟩ := List.exists_cons_of_ne_nil hne
    simp [separated, hfields, List.intercalate_cons_cons]
  rw [shadowTokens, shadowPieces, Enriched.tokens, Grouped.tokens, shadowQuery]
  cases truthy view.tenantIdColumn with
  | none =>
    simp only [List.flatMap_append, List.flatMap_cons, List.flatMap_nil, List.map_map, Function.comp_def, hcolumns,
      hpivots, hexcept, hjoined, pivotColumn_name]
    simp [Piece.tokens, quotedName, literal, contents, qualified, hwith, hfrom, hwhere, hselect, hnext, htable, hjoin,
      hcolumn, Separator.newline, Separator.closing, Separator.space]
  | some tenantIdColumn =>
    simp only [List.flatMap_append, List.flatMap_cons, List.flatMap_nil, List.map_map, Function.comp_def, hcolumns,
      hpivots, hexcept, hjoined, pivotColumn_name, filterPieces]
    simp [Piece.tokens, quotedName, literal, contents, qualified, hwith, hfrom, hwhere, hselect, hnext, htable, hjoin,
      huser, hequals, hcolumn, Separator.newline, Separator.closing, Separator.space]

/-- What the text of the view reads as is the query, exactly when what is written into it is harmless. -/
lemma lex_shadowQuery_iff (h : ensureShadowCopy redaction resource = .ok (some view)) :
    lex view.viewSql = some (shadowQuery view).tokens ↔ ShadowHarmless redaction resource := by
  obtain ⟨hselected, piiVault, batchDecryptFunctionRef, hvault, href⟩ := ensureShadowCopy_some h
  obtain ⟨-, hne, userIdColumn, tenantId, source, -, -, -, -, rfl⟩ :=
    (ensureShadowCopy_ok_iff hvault href hselected).mp h
  rw [tokens_shadowQuery hne]
  exact lex_shadow_iff h

end Queries

section Contents

structure VaultRow where
  tenantId : String
  userId : String
  resourceId : String
  fieldName : String
  keyId : String
  token : String
  encryptedValue : String
  syncedAt : ℤ

def VaultRow.read (row : VaultRow) : String → Value
  | "tenant_id" => .text row.tenantId
  | "user_id" => .text row.userId
  | "resource_id" => .text row.resourceId
  | "field_name" => .text row.fieldName
  | "key_id" => .text row.keyId
  | "token" => .text row.token
  | "encrypted_value" => .text row.encryptedValue
  | "synced_at" => .time row.syncedAt
  | _ => .null

def piiVault (rows : List VaultRow) : Sql.Table VaultRow := ⟨rows, VaultRow.read⟩

def decrypted (functions : Functions) (batchDecryptFunctionRef : String) (row : VaultRow) : Value :=
  functions.call batchDecryptFunctionRef
    [functions.castText (.text row.encryptedValue), .text row.userId, .text row.tenantId]

variable {σ : Type} (resource : PiiRegistryEntry) (view : ShadowView) (functions : Functions) (vault : List VaultRow)
  (source : Sql.Table σ)

/-- A value of the field, of the tenant and the user, whichever resource it was synced from. -/
structure HasValue (user : Value) (field : String) (row : VaultRow) : Prop where
  tenantId : resource.tenantId = some row.tenantId
  userId : .text row.userId = user
  fieldName : row.fieldName = field
  value : decrypted functions view.batchDecryptFunctionRef row ≠ .null

/-- What the view is for: the latest value synced from the resource itself, and none only where there is none. -/
def IsStoredValue (user : Value) (field : String) : Option VaultRow → Value → Prop
  | none, value => value = .null ∧
      ∀ row ∈ vault, row.resourceId = resource.resourceId → ¬HasValue resource view functions user field row
  | some row, value => value = decrypted functions view.batchDecryptFunctionRef row ∧
      (row ∈ vault ∧ row.resourceId = resource.resourceId ∧ HasValue resource view functions user field row) ∧
      ∀ row' ∈ vault, row'.resourceId = resource.resourceId → HasValue resource view functions user field row' →
        row'.syncedAt ≤ row.syncedAt

def userOf (s : σ) : Value := source.read s (resource.userIdColumn.getD "")

def ShowsStoredValues : Prop :=
  ∀ answer, (shadowQuery view).Answers functions (piiVault vault) source answer →
    ∀ row ∈ answer, ∀ field ∈ encryptedFieldsOf resource,
      IsStoredValue resource view functions vault (userOf resource source row.1) field
        (shownRow (pivotColumn view.batchDecryptFunctionRef field) row)
        (cell functions (piiVault vault) (pivotColumn view.batchDecryptFunctionRef field) row)

/-- What another resource stored for a field of the same name is older than what the resource itself did. -/
def NamesakesAreOlder : Prop :=
  ∀ s ∈ source.rows, (shadowQuery view).keeps source s = true → ∀ field ∈ encryptedFieldsOf resource, ∀ row ∈ vault,
    HasValue resource view functions (userOf resource source s) field row → row.resourceId ≠ resource.resourceId →
    ∃ row' ∈ vault, HasValue resource view functions (userOf resource source s) field row' ∧
      row'.resourceId = resource.resourceId ∧ row.syncedAt < row'.syncedAt

end Contents

section Proofs

variable {σ : Type} {resource : PiiRegistryEntry} {view : ShadowView} {functions : Functions} {vault : List VaultRow}
  {source : Sql.Table σ} {user : Value} {field : String} {row : VaultRow} {shown : Option VaultRow}
  {redaction : SourceRedactionService}

lemma valueOf_pivotColumn : (pivotColumn view.batchDecryptFunctionRef field).valueOf functions (piiVault vault) row =
    if row.fieldName = field then decrypted functions view.batchDecryptFunctionRef row else .null := by
  simp [Latest.valueOf, pivotColumn, Expression.eval, Scalar.eval, piiVault, VaultRow.read, decrypted]

lemma momentOf_pivotColumn :
    (pivotColumn view.batchDecryptFunctionRef field).momentOf (piiVault vault) row = (row.syncedAt : WithBot ℤ) := rfl

/-- What the query takes from the resource. -/
structure Reflects (view : ShadowView) (resource : PiiRegistryEntry) : Prop where
  tenantId : resource.tenantId = some view.tenantId
  userIdColumn : resource.userIdColumn.getD "" = view.userIdColumn
  fields : encryptedFieldsOf resource = view.fields

lemma reflects (h : ensureShadowCopy redaction resource = .ok (some view)) : Reflects view resource := by
  obtain ⟨hselected, piiVault, batchDecryptFunctionRef, hvault, href⟩ := ensureShadowCopy_some h
  obtain ⟨-, -, userIdColumn, tenantId, source, huser, htenant, -, -, rfl⟩ :=
    (ensureShadowCopy_ok_iff hvault href hselected).mp h
  obtain ⟨huser, -⟩ := truthy_eq_some_iff.mp huser
  exact ⟨(truthy_eq_some_iff.mp htenant).1, by rw [huser]; rfl, rfl⟩

lemma mem_group (hr : Reflects view resource) :
    row ∈ (shadowQuery view).grouped.rows (piiVault vault) user ∧
        (pivotColumn view.batchDecryptFunctionRef field).valueOf functions (piiVault vault) row ≠ .null ↔
      row ∈ vault ∧ HasValue resource view functions user field row := by
  rw [Grouped.mem_rows, valueOf_pivotColumn]
  simp only [shadowQuery, piiVault, VaultRow.read, Value.text.injEq]
  constructor
  · rintro ⟨⟨hrow, htenant, huser⟩, hvalue⟩
    by_cases hfield : row.fieldName = field
    · exact ⟨hrow, hr.tenantId.trans (congrArg some htenant.symm), huser, hfield, by simpa [hfield] using hvalue⟩
    · simp [hfield] at hvalue
  · rintro ⟨hrow, htenant, huser, hfield, hvalue⟩
    have hsame : row.tenantId = view.tenantId := Option.some.inj (htenant.symm.trans hr.tenantId)
    exact ⟨⟨hrow, hsame, huser⟩, by simpa [hfield] using hvalue⟩

lemma shows_some_iff (hr : Reflects view resource) :
    (pivotColumn view.batchDecryptFunctionRef field).Shows functions (piiVault vault)
        ((shadowQuery view).grouped.rows (piiVault vault) user) (some row) ↔
      (row ∈ vault ∧ HasValue resource view functions user field row) ∧
        ∀ row' ∈ vault, HasValue resource view functions user field row' → row'.syncedAt ≤ row.syncedAt := by
  refine and_congr (mem_group hr) (forall_congr' fun row' => ?_)
  rw [← and_imp, ← and_imp, mem_group hr, momentOf_pivotColumn, momentOf_pivotColumn, WithBot.coe_le_coe]

lemma shows_none_iff (hr : Reflects view resource) :
    (pivotColumn view.batchDecryptFunctionRef field).Shows functions (piiVault vault)
        ((shadowQuery view).grouped.rows (piiVault vault) user) none ↔
      ∀ row ∈ vault, ¬HasValue resource view functions user field row := by
  refine forall_congr' fun row => ?_
  rw [← not_iff_not, Classical.not_imp, Classical.not_imp, not_not]
  exact mem_group hr

/-- The column shows rows of the resource alone, however ties are broken, when its namesakes are older. -/
lemma shows_own_iff (hr : Reflects view resource) :
    (∀ row, (pivotColumn view.batchDecryptFunctionRef field).Shows functions (piiVault vault)
        ((shadowQuery view).grouped.rows (piiVault vault) user) (some row) → row.resourceId = resource.resourceId) ↔
      ∀ row ∈ vault, HasValue resource view functions user field row → row.resourceId ≠ resource.resourceId →
        ∃ row' ∈ vault, HasValue resource view functions user field row' ∧ row'.resourceId = resource.resourceId ∧
          row.syncedAt < row'.syncedAt := by
  rw [Latest.shows_only_iff]
  refine forall_congr' fun row => ?_
  rw [← and_imp, mem_group hr, and_imp]
  refine imp_congr_right fun _ => imp_congr_right fun _ => imp_congr_right fun _ => exists_congr fun row' => ?_
  rw [← and_assoc, mem_group hr, and_assoc, momentOf_pivotColumn, momentOf_pivotColumn, WithBot.coe_lt_coe]

lemma isStoredValue_of_shows (hr : Reflects view resource)
    (hshow : (pivotColumn view.batchDecryptFunctionRef field).Shows functions (piiVault vault)
      ((shadowQuery view).grouped.rows (piiVault vault) user) shown)
    (hown : ∀ row ∈ shown, row.resourceId = resource.resourceId) :
    IsStoredValue resource view functions vault user field shown
      (shown.elim .null ((pivotColumn view.batchDecryptFunctionRef field).valueOf functions (piiVault vault))) := by
  cases shown with
  | none => exact ⟨rfl, fun row hrow _ => (shows_none_iff hr).mp hshow row hrow⟩
  | some row =>
    obtain ⟨⟨hrow, hvalue⟩, hlatest⟩ := (shows_some_iff hr).mp hshow
    refine ⟨?_, ⟨hrow, hown row rfl, hvalue⟩, fun row' hrow' _ => hlatest row' hrow'⟩
    exact valueOf_pivotColumn.trans (if_pos hvalue.fieldName)

lemma isStoredValue_of_null (hnull : user = .null) :
    IsStoredValue resource view functions vault user field none .null :=
  ⟨rfl, fun _ _ _ hvalue => by cases hvalue.userId.trans hnull⟩

lemma keeps_shown (hr : Reflects view resource) {answer : List (σ × Option (Sql.Group VaultRow))}
    {row : σ × Option (Sql.Group VaultRow)} (hfield : field ∈ encryptedFieldsOf resource)
    (h : (shadowQuery view).Answers functions (piiVault vault) source answer) (hrow : row ∈ answer) :
    (row.1 ∈ source.rows ∧ (shadowQuery view).keeps source row.1 = true) ∧
      (userOf resource source row.1 = .null ∧
          shownRow (pivotColumn view.batchDecryptFunctionRef field) row = none ∨
        (pivotColumn view.batchDecryptFunctionRef field).Shows functions (piiVault vault)
          ((shadowQuery view).grouped.rows (piiVault vault) (userOf resource source row.1))
          (shownRow (pivotColumn view.batchDecryptFunctionRef field) row)) := by
  have hcolumn : pivotColumn view.batchDecryptFunctionRef field ∈ (shadowQuery view).grouped.columns :=
    List.mem_map_of_mem (hr.fields ▸ hfield)
  have hshown := Enriched.shows_of_answers h hrow hcolumn
  rw [userOf, hr.userIdColumn]
  exact hshown

theorem shadow_copy_shows_own_iff (h : ensureShadowCopy redaction resource = .ok (some view)) (functions : Functions)
    (vault : List VaultRow) (source : Sql.Table σ) :
    (lex view.viewSql = some (shadowQuery view).tokens ↔ ShadowHarmless redaction resource) ∧
    (ShowsStoredValues resource view functions vault source ↔
      NamesakesAreOlder resource view functions vault source) := by
  have hr := reflects h
  refine ⟨lex_shadowQuery_iff h, ?_, ?_⟩
  · intro hshows s hs hkeeps field hfield
    refine (shows_own_iff hr).mp fun row hshow => ?_
    have huser : userOf resource source s ≠ .null := fun hnull => by
      cases ((shows_some_iff hr).mp hshow).1.2.userId.trans hnull
    rw [userOf, hr.userIdColumn] at hshow huser
    obtain ⟨answer, hanswer, shown, hm, rfl, hrow⟩ := Enriched.exists_answers hs hkeeps huser hshow
    have hstored := hshows answer hanswer shown hm field hfield
    rw [hrow] at hstored
    exact hstored.2.1.2.1
  · intro holder answer hanswer row hrow field hfield
    obtain ⟨⟨hs, hkeeps⟩, ⟨hnull, hnone⟩ | hshow⟩ := keeps_shown hr hfield hanswer hrow
    · rw [cell, hnone]
      exact isStoredValue_of_null hnull
    · refine isStoredValue_of_shows hr hshow fun own hown => ?_
      have hown : shownRow (pivotColumn view.batchDecryptFunctionRef field) row = some own := hown
      exact (shows_own_iff hr).mpr (holder row.1 hs hkeeps field hfield) own (hown ▸ hshow)

end Proofs

section Contacts

lemma ensureShadowCopy_protected : ensureShadowCopy viewsEnabled protectedResource = .ok (some protectedView) := by
  refine (ensureShadowCopy_ok_iff rfl (truthy_eq_some_iff.mpr ⟨rfl, by decide⟩) (by decide +kernel)).mpr ?_
  exact ⟨rfl, by decide +kernel, "id", "acme", ⟨"p", "d", "users"⟩, by decide +kernel, by decide +kernel,
    by decide +kernel, by decide +kernel, rfl⟩

def transparent : Functions := ⟨fun _ arguments => arguments.headD .null, id⟩

def stored (resourceId value : String) (syncedAt : ℤ) : VaultRow :=
  ⟨"acme", "u1", resourceId, "email", "v1", "t1", value, syncedAt⟩

def users : Sql.Table String := ⟨["u1", "u2"], fun id column => if column = "id" then .text id else .null⟩

lemma hasValue_stored {resourceId value : String} {syncedAt : ℤ} :
    HasValue protectedResource protectedView transparent (.text "u1") "email" (stored resourceId value syncedAt) :=
  ⟨(reflects ensureShadowCopy_protected).tenantId, rfl, rfl, nofun⟩

theorem shadow_copy_shows_own_users : ShowsStoredValues protectedResource protectedView transparent
    [stored "bigquery:p.d.users" "own" 2, stored "bigquery:p.d.contacts" "other" 1] users := by
  refine (shadow_copy_shows_own_iff ensureShadowCopy_protected _ _ users).2.mpr ?_
  intro s _ _ field _ row hrow hvalue hother
  have hcontact : row = stored "bigquery:p.d.contacts" "other" 1 := by
    rcases List.mem_pair.mp hrow with rfl | rfl
    · exact absurd (by decide +kernel) hother
    · rfl
  subst hcontact
  obtain rfl := hvalue.fieldName
  rw [← hvalue.userId]
  exact ⟨_, List.mem_cons_self, hasValue_stored, by decide +kernel, by decide⟩

def namesakes : List VaultRow := [stored "bigquery:p.d.users" "own" 1, stored "bigquery:p.d.contacts" "other" 2]

/-- The user's address in the one table is shown where the other's belongs. -/
theorem shadow_copy_shows_namesake : ensureShadowCopy viewsEnabled protectedResource = .ok (some protectedView) ∧
    ∃ answer, (shadowQuery protectedView).Answers transparent (piiVault namesakes) users answer ∧
      ∃ row ∈ answer, row.1 = "u1" ∧ shownRow (pivotColumn protectedView.batchDecryptFunctionRef "email") row =
          some (stored "bigquery:p.d.contacts" "other" 2) ∧
        cell transparent (piiVault namesakes) (pivotColumn protectedView.batchDecryptFunctionRef "email") row =
          .text "other" ∧
        ¬ShowsStoredValues protectedResource protectedView transparent namesakes users := by
  have hr := reflects ensureShadowCopy_protected
  have hshow : (pivotColumn protectedView.batchDecryptFunctionRef "email").Shows transparent (piiVault namesakes)
      ((shadowQuery protectedView).grouped.rows (piiVault namesakes) (users.read "u1" "id"))
      (some (stored "bigquery:p.d.contacts" "other" 2)) := by
    refine (shows_some_iff hr).mpr ⟨⟨List.mem_cons_of_mem _ List.mem_cons_self, hasValue_stored⟩, ?_⟩
    intro row' hrow' _
    rcases List.mem_pair.mp hrow' with rfl | rfl
    · exact Int.ofNat_le.mpr (by decide)
    · exact le_refl _
  obtain ⟨answer, hanswer, row, hrow, huser, hshown⟩ :=
    Enriched.exists_answers (e := shadowQuery protectedView) (s := "u1") (by decide) (by decide +kernel) (by decide)
      hshow
  refine ⟨ensureShadowCopy_protected, answer, hanswer, row, hrow, huser, hshown, ?_, fun hshows => ?_⟩
  · rw [cell, hshown]
    rfl
  · have hstored := hshows answer hanswer row hrow "email" (by decide +kernel)
    rw [hshown] at hstored
    exact absurd hstored.2.1.2.1 (by decide +kernel)

end Contacts

end ChameleonVault.DecryptedViews
