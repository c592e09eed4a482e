import ChameleonVault.PiiRegistry.Validation

/-! The executors of source redaction that a declaration sets going besides the queries of a
deletion: the shadow view and the encrypted copy, each with the statements it generates. -/

namespace ChameleonVault.PiiRegistry

open KeyRegistry (truthy)
open Deletion (TableRef parseBigQueryResourceId assertSafeIdentifiers assertSafeIdentifiers_ok_iff isSafeIdentifier
  hasSourceRedactionStrategy bind_ok_iff)

section Sql

def quoted (table : TableRef) (suffix : String) : String :=
  "`" ++ table.projectId ++ "." ++ table.datasetId ++ "." ++ table.tableId ++ suffix ++ "`"

def escapeSqlStringLiteral (value : String) : String :=
  String.ofList (value.toList.flatMap fun c => if c.toNat = 0x27 then [c, c] else [c])

def buildPiiVaultPivotColumns (declaredFields : List String) (batchDecryptFunctionRef : String) : List String :=
  declaredFields.map fun field =>
    "ARRAY_AGG(IF(field_name = '" ++ escapeSqlStringLiteral field ++ "', "
      ++ "`" ++ batchDecryptFunctionRef ++ "`(CAST(encrypted_value AS STRING), user_id, tenant_id), NULL) "
      ++ "IGNORE NULLS ORDER BY synced_at DESC LIMIT 1)[SAFE_OFFSET(0)] AS " ++ field

def joinLines (lines : List String) : String := "\n".intercalate lines

end Sql

structure SourceRedactionService where
  piiVault : Option TableRef
  batchDecryptFunctionRef : Option String

def encryptedFieldsOf (resource : PiiRegistryEntry) : List String :=
  (resource.piiFields.filter fun field => field.handling = .encrypt).map PiiFieldPolicy.name

section ShadowCopy

structure ShadowView where
  source : TableRef
  piiVault : TableRef
  batchDecryptFunctionRef : String
  fields : List String
  userIdColumn : String
  tenantIdColumn : Option String
  tenantId : String

namespace ShadowView

def viewId (view : ShadowView) : String := view.source.tableId ++ "_deidentified"

def viewSql (view : ShadowView) : String :=
  let tenantLiteral := escapeSqlStringLiteral view.tenantId
  let tenantFilter := match truthy view.tenantIdColumn with
    | some tenantIdColumn => "WHERE s." ++ tenantIdColumn ++ " = '" ++ tenantLiteral ++ "'"
    | none => ""
  joinLines ([
    "WITH decrypted_pii AS (",
    "  SELECT",
    "    user_id,",
    "    " ++ ",\n    ".intercalate (buildPiiVaultPivotColumns view.fields view.batchDecryptFunctionRef),
    "  FROM " ++ quoted view.piiVault "",
    "  WHERE tenant_id = '" ++ tenantLiteral ++ "'",
    "  GROUP BY user_id",
    ")",
    "SELECT s.* EXCEPT (" ++ ", ".intercalate view.fields ++ "), " ++ ", ".intercalate (view.fields.map ("d." ++ ·)),
    "FROM " ++ quoted view.source "" ++ " s",
    "LEFT JOIN decrypted_pii d ON s." ++ view.userIdColumn ++ " = d.user_id",
    tenantFilter].filter (· ≠ ""))

/-- The lists of columns in the statement: of the common table, of what is left out, and of what is joined. -/
def columnLists (view : ShadowView) : List (List String) := ["user_id" :: view.fields, view.fields, view.fields]

end ShadowView

def dropShadowCopyIfExists (resource : PiiRegistryEntry) : Except String (Option TableRef) :=
  if resource.system ≠ .bigquery then .ok none
  else do
    let table ← parseBigQueryResourceId resource.resourceId
    return some table

def ensureShadowCopy (service : SourceRedactionService) (resource : PiiRegistryEntry) :
    Except String (Option ShadowView) :=
  if !hasSourceRedactionStrategy resource.resource .shadowCopy then do
    let _ ← dropShadowCopyIfExists resource
    return none
  else match service.piiVault, truthy service.batchDecryptFunctionRef with
    | some piiVault, some batchDecryptFunctionRef =>
      if resource.system ≠ .bigquery then
        .error ("sourceRedactionStrategy SHADOW_COPY is only implemented for bigquery resources, got \""
          ++ resource.system.name ++ "\".")
      else match truthy resource.userIdColumn, truthy resource.tenantId with
        | none, _ =>
          .error "Resource has no userIdColumn declared; refusing to build a shadow copy without a safe join key."
        | some _, none => .error "Resource has no tenantId; refusing to build a shadow copy."
        | some userIdColumn, some tenantId =>
          let fields := encryptedFieldsOf resource
          if fields = [] then
            .error ("Resource has no ENCRYPT-handling piiFields to shadow-copy (only ENCRYPT fields are ever "
              ++ "synced into pii_vault).")
          else do
            assertSafeIdentifiers (userIdColumn :: (resource.tenantIdColumn.toList ++ fields))
            let source ← parseBigQueryResourceId resource.resourceId
            let _ ← dropShadowCopyIfExists resource
            return some {
              source, piiVault, batchDecryptFunctionRef, fields, userIdColumn, tenantId
              tenantIdColumn := resource.tenantIdColumn }
    | _, _ =>
      .error ("SHADOW_COPY requires decrypted views to be enabled on this deployment (pii_vault + batch-decrypt "
        ++ "function not configured).")

end ShadowCopy

section EncryptedCopy

structure EncryptedCopyTable where
  source : TableRef
  fields : List String
  userIdColumn : String

namespace EncryptedCopyTable

def rawRef (table : EncryptedCopyTable) : String := quoted table.source "_encrypted_raw"

def viewRef (table : EncryptedCopyTable) : String := quoted table.source "_encrypted"

def createTableSql (table : EncryptedCopyTable) : String :=
  joinLines [
    "CREATE TABLE IF NOT EXISTS " ++ table.rawRef ++ " AS",
    "SELECT",
    "    s.* EXCEPT (" ++ ", ".intercalate table.fields ++ "),",
    "    " ++ ",\n    ".intercalate (table.fields.map ("CAST(NULL AS STRING) AS " ++ ·)) ++ ",",
    "    CAST(NULL AS TIMESTAMP) AS synced_at",
    "FROM " ++ quoted table.source "" ++ " s",
    "WHERE FALSE"]

def alterTableSql (table : EncryptedCopyTable) : String :=
  "ALTER TABLE " ++ table.rawRef ++ "\n  "
    ++ ",\n  ".intercalate (table.fields.map fun field => "ADD COLUMN IF NOT EXISTS " ++ field ++ " STRING")

def dedupViewSql (table : EncryptedCopyTable) : String :=
  joinLines [
    "SELECT * FROM " ++ table.rawRef,
    "QUALIFY ROW_NUMBER() OVER (PARTITION BY " ++ table.userIdColumn ++ " ORDER BY synced_at DESC) = 1"]

/-- The lists of columns in the statements: of what is left out, of the new table, and of what is added. -/
def columnLists (table : EncryptedCopyTable) : List (List String) :=
  [table.fields, table.fields ++ ["synced_at"], table.fields]

end EncryptedCopyTable

def ensureEncryptedCopyTable (resource : PiiRegistryEntry) : Except String (Option EncryptedCopyTable) :=
  if !hasSourceRedactionStrategy resource.resource .encryptedCopy then .ok none
  else if resource.system ≠ .bigquery then
    .error ("sourceRedactionStrategy ENCRYPTED_COPY is only implemented for bigquery resources, got \""
      ++ resource.system.name ++ "\".")
  else match truthy resource.userIdColumn with
    | none =>
      .error "Resource has no userIdColumn declared; refusing to build an encrypted copy without a safe key column."
    | some userIdColumn =>
      let fields := encryptedFieldsOf resource
      if fields = [] then
        .error ("Resource has no ENCRYPT-handling piiFields to encrypted-copy (only ENCRYPT fields are ever "
          ++ "synced into pii_vault).")
      else do
        assertSafeIdentifiers (userIdColumn :: (resource.tenantIdColumn.toList ++ fields))
        let source ← parseBigQueryResourceId resource.resourceId
        return some { source, fields, userIdColumn }

end EncryptedCopy

section Guards

variable {service : SourceRedactionService} {resource : PiiRegistryEntry} {piiVault : TableRef}
  {batchDecryptFunctionRef : String} {view : ShadowView} {table : EncryptedCopyTable}

lemma ensureShadowCopy_ok_iff (hvault : service.piiVault = some piiVault)
    (hdecrypt : truthy service.batchDecryptFunctionRef = some batchDecryptFunctionRef)
    (hselected : hasSourceRedactionStrategy resource.resource .shadowCopy = true) :
    ensureShadowCopy service resource = .ok (some view) ↔
      resource.system = .bigquery ∧ encryptedFieldsOf resource ≠ [] ∧ ∃ userIdColumn tenantId source,
        truthy resource.userIdColumn = some userIdColumn ∧ truthy resource.tenantId = some tenantId ∧
        (∀ identifier ∈ userIdColumn :: (resource.tenantIdColumn.toList ++ encryptedFieldsOf resource),
          isSafeIdentifier identifier = true) ∧
        parseBigQueryResourceId resource.resourceId = .ok source ∧
        view = ⟨source, piiVault, batchDecryptFunctionRef, encryptedFieldsOf resource, userIdColumn,
          resource.tenantIdColumn, tenantId⟩ := by
  rw [ensureShadowCopy]
  simp only [hselected, hvault, hdecrypt, Bool.not_true, Bool.false_eq_true, if_false]
  constructor
  · intro h
    split at h
    · contradiction
    · rename_i hsystem
      split at h
      · contradiction
      · contradiction
      · rename_i userIdColumn tenantId hcolumn htenant
        split at h
        · contradiction
        · rename_i hfields
          obtain ⟨_, hassert, h⟩ := bind_ok_iff.mp h
          obtain ⟨source, hsource, h⟩ := bind_ok_iff.mp h
          obtain ⟨_, -, h⟩ := bind_ok_iff.mp h
          exact ⟨not_not.mp hsystem, hfields, userIdColumn, tenantId, source, hcolumn, htenant,
            assertSafeIdentifiers_ok_iff.mp hassert, hsource, (Option.some.inj (Except.ok.inj h)).symm⟩
  · rintro ⟨hsystem, hfields, userIdColumn, tenantId, source, hcolumn, htenant, hsafe, hsource, rfl⟩
    have hassert := (assertSafeIdentifiers_ok_iff (u := ())).mpr hsafe
    simp only [dropShadowCopyIfExists, hsystem, hcolumn, htenant, hfields, hassert, hsource]
    rfl

lemma ensureShadowCopy_some (h : ensureShadowCopy service resource = .ok (some view)) :
    hasSourceRedactionStrategy resource.resource .shadowCopy = true ∧ ∃ piiVault batchDecryptFunctionRef,
      service.piiVault = some piiVault ∧ truthy service.batchDecryptFunctionRef = some batchDecryptFunctionRef := by
  rw [ensureShadowCopy] at h
  split at h
  · obtain ⟨_, -, h⟩ := bind_ok_iff.mp h
    cases h
  · rename_i hselected
    split at h
    · rename_i piiVault batchDecryptFunctionRef hvault href
      exact ⟨by simpa using hselected, piiVault, batchDecryptFunctionRef, hvault, href⟩
    · cases h

lemma ensureEncryptedCopyTable_ok_iff
    (hselected : hasSourceRedactionStrategy resource.resource .encryptedCopy = true) :
    ensureEncryptedCopyTable resource = .ok (some table) ↔
      resource.system = .bigquery ∧ encryptedFieldsOf resource ≠ [] ∧ ∃ userIdColumn source,
        truthy resource.userIdColumn = some userIdColumn ∧
        (∀ identifier ∈ userIdColumn :: (resource.tenantIdColumn.toList ++ encryptedFieldsOf resource),
          isSafeIdentifier identifier = true) ∧
        parseBigQueryResourceId resource.resourceId = .ok source ∧
        table = ⟨source, encryptedFieldsOf resource, userIdColumn⟩ := by
  rw [ensureEncryptedCopyTable]
  simp only [hselected, Bool.not_true, Bool.false_eq_true, if_false]
  constructor
  · intro h
    split at h
    · contradiction
    · rename_i hsystem
      split at h
      · contradiction
      · rename_i userIdColumn hcolumn
        split at h
        · contradiction
        · rename_i hfields
          obtain ⟨_, hassert, h⟩ := bind_ok_iff.mp h
          obtain ⟨source, hsource, h⟩ := bind_ok_iff.mp h
          exact ⟨not_not.mp hsystem, hfields, userIdColumn, source, hcolumn, assertSafeIdentifiers_ok_iff.mp hassert,
            hsource, (Option.some.inj (Except.ok.inj h)).symm⟩
  · rintro ⟨hsystem, hfields, userIdColumn, source, hcolumn, hsafe, hsource, rfl⟩
    have hassert := (assertSafeIdentifiers_ok_iff (u := ())).mpr hsafe
    simp only [hsystem, hcolumn, hfields, hassert, hsource]
    rfl

end Guards

end ChameleonVault.PiiRegistry
