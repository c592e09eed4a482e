import ChameleonVault.PiiRegistry.Executable
import ChameleonVault.Sql.Clauses

/-! What the statements of an erasure do to which table, as the database reads their texts. -/

namespace ChameleonVault.PiiRegistry

open KeyRegistry (truthy truthy_eq_some_iff)
open Deletion (TableRef Query isSafeIdentifier parseBigQueryResourceId bigqueryPrefix whereUser queryParams
  redactionQuery redactionQuery_ok_iff encryptedCopyQuery encryptedCopyQuery_ok_iff)
open Sql (Condition Verbatim Worded backtick isName isReserved statement equality updateText deleteText
  conjunctionText updateText_confined_iff deleteText_confined_iff)

section Confined

def tablePath (table : TableRef) : String := table.projectId ++ "." ++ table.datasetId ++ "." ++ table.tableId

variable (resource : Deletion.PiiRegistryEntry) (userId tenantId : String) (query : Query)

/-- The conditions hold for rows of the user, and of the tenant where its column is declared, and for no others. -/
structure Restricted (conditions : List Condition) : Prop where
  user : ∃ column, resource.userIdColumn = some column ∧
    Condition.equal (.column column) (.parameter "userId") ∈ conditions
  userId : query.userId = userId
  tenant : ∀ column ∈ resource.tenantIdColumn,
    Condition.equal (.column column) (.parameter "tenantId") ∈ conditions ∧ query.tenantId = some tenantId

def RedactionConfined : Prop :=
  ∃ table assignments conditions, parseBigQueryResourceId resource.resourceId = .ok table ∧
    statement query.text = some (.update (tablePath table) assignments conditions) ∧
    (∀ assigned ∈ assignments, assigned.1 ∈ resource.piiFields) ∧
    Restricted resource userId tenantId query conditions

def CopyDeletionConfined : Prop :=
  ∃ table conditions, parseBigQueryResourceId resource.resourceId = .ok table ∧
    statement query.text = some (.delete (tablePath table ++ "_encrypted_raw") conditions) ∧
    Restricted resource userId tenantId query conditions

def scopeColumns : List String := resource.userIdColumn.toList ++ resource.tenantIdColumn.toList

/-- What the statement is written with stands for itself. -/
structure Quotable (columns : List String) : Prop where
  resourceId : Verbatim resource.resourceId.toList
  columns : ∀ column ∈ columns, isReserved column = false

end Confined

section Texts

variable {resource : Deletion.PiiRegistryEntry} {userId tenantId text userIdColumn : String} {query : Query}
  {tenantIdColumn : Option String} {table : TableRef} {conditions : List Condition}

lemma isSafeIdentifier_eq {identifier : String} : isSafeIdentifier identifier = isName identifier.toList := by
  rw [isSafeIdentifier]
  cases identifier.toList <;> rfl

lemma toList_resourceId {resourceId : String} (h : parseBigQueryResourceId resourceId = .ok table) :
    resourceId.toList = bigqueryPrefix.toList ++ (tablePath table).toList := by
  rw [parseBigQueryResourceId] at h
  split at h
  · rename_i hprefix
    obtain ⟨path, hpath⟩ := List.isPrefixOf_iff_prefix.mp hprefix
    have hdrop : resourceId.toList.drop bigqueryPrefix.length = path := by
      rw [← hpath, ← String.length_toList]
      exact List.drop_left
    split at h
    · rename_i projectId datasetId tableId hsplit
      split at h
      · obtain rfl := Except.ok.inj h
        have hjoin : ['.'].intercalate (path.splitOn '.') = path := List.intercalate_splitOn '.'
        rw [hdrop] at hsplit
        rw [← hpath, ← hjoin, hsplit]
        simp [tablePath]
      · cases h
    · cases h
  · cases h

lemma verbatim_resourceId_iff (h : parseBigQueryResourceId resource.resourceId = .ok table) :
    Verbatim resource.resourceId.toList ↔ Verbatim (tablePath table).toList := by
  have hprefix : Verbatim bigqueryPrefix.toList := by decide
  rw [toList_resourceId h]
  exact List.forall_mem_append.trans (and_iff_right hprefix)

lemma tablePath_append_ne {suffix : String} : tablePath table ++ suffix ≠ "" := by
  intro h
  have hlength := congrArg String.length h
  simp only [tablePath, String.length_append] at hlength
  have hdot : ".".length = 1 := rfl
  have hempty : "".length = 0 := rfl
  omega

def scope (userIdColumn : String) (tenantIdColumn : Option String) : List (String × String) :=
  (userIdColumn, "userId") :: (tenantIdColumn.map fun column => (column, "tenantId")).toList

lemma truthy_of_safe (h : ∀ identifier ∈ tenantIdColumn.toList, isSafeIdentifier identifier = true) :
    truthy tenantIdColumn = tenantIdColumn := by
  cases tenantIdColumn with
  | none => rfl
  | some column =>
    refine truthy_eq_some_iff.mpr ⟨rfl, ?_⟩
    rintro rfl
    have hsafe := h "" List.mem_cons_self
    contradiction

lemma whereUser_eq (h : truthy tenantIdColumn = tenantIdColumn) :
    whereUser userIdColumn tenantIdColumn = conjunctionText (scope userIdColumn tenantIdColumn) := by
  rw [whereUser, h, scope]
  cases tenantIdColumn <;> simp [conjunctionText, Sql.conjunctText, String.append_assoc]

lemma worded_scope (huser : isSafeIdentifier userIdColumn = true)
    (htenant : ∀ identifier ∈ tenantIdColumn.toList, isSafeIdentifier identifier = true) :
    Worded (scope userIdColumn tenantIdColumn) := by
  have huserId : isName "userId".toList = true := by decide
  have htenantId : isName "tenantId".toList = true := by decide
  refine ⟨nofun, fun c hm => ?_⟩
  rcases List.mem_cons.mp hm with rfl | hm
  · exact ⟨isSafeIdentifier_eq ▸ huser, huserId⟩
  · obtain ⟨column, hcolumn, rfl⟩ := Option.map_eq_some_iff.mp (Option.mem_toList.mp hm)
    exact ⟨isSafeIdentifier_eq ▸ htenant column (Option.mem_toList.mpr hcolumn), htenantId⟩

lemma restricted_iff (huser : resource.userIdColumn = some userIdColumn)
    (htenant : truthy resource.tenantIdColumn = resource.tenantIdColumn) :
    Restricted resource userId tenantId ⟨text, userId, queryParams resource.tenantIdColumn tenantId⟩ conditions ↔
      ∀ c ∈ scope userIdColumn resource.tenantIdColumn, equality c ∈ conditions := by
  rw [scope, List.forall_mem_cons]
  constructor
  · rintro ⟨⟨column, hcolumn, hm⟩, -, hscope⟩
    obtain rfl := Option.some.inj (huser.symm.trans hcolumn)
    refine ⟨hm, fun c hc => ?_⟩
    obtain ⟨column, hcolumn, rfl⟩ := Option.map_eq_some_iff.mp (Option.mem_toList.mp hc)
    exact (hscope column hcolumn).1
  · rintro ⟨hm, hscope⟩
    refine ⟨⟨userIdColumn, huser, hm⟩, rfl, fun column hcolumn => ⟨hscope (column, "tenantId") ?_, ?_⟩⟩
    · exact Option.mem_toList.mpr (Option.map_eq_some_iff.mpr ⟨column, hcolumn, rfl⟩)
    · rw [queryParams, htenant, Option.mem_def.mp hcolumn, Option.map_some]

lemma unreserved_scope_iff (huser : resource.userIdColumn = some userIdColumn) :
    (∀ c ∈ scope userIdColumn resource.tenantIdColumn, isReserved c.1 = false) ↔
      ∀ column ∈ scopeColumns resource, isReserved column = false := by
  rw [scope, scopeColumns, huser]
  cases resource.tenantIdColumn <;> simp

lemma encryptedCopy_text (h : truthy tenantIdColumn = tenantIdColumn) :
    "DELETE FROM `" ++ table.projectId ++ "." ++ table.datasetId ++ "." ++ table.tableId ++ "_encrypted_raw` WHERE "
        ++ whereUser userIdColumn tenantIdColumn =
      deleteText (tablePath table ++ "_encrypted_raw") (scope userIdColumn tenantIdColumn) := by
  have hliteral : "_encrypted_raw` WHERE " = "_encrypted_raw" ++ "` WHERE " := by decide
  rw [whereUser_eq h, hliteral]
  change _ = "DELETE FROM `" ++ (tablePath table ++ "_encrypted_raw") ++ "` WHERE " ++ conjunctionText _
  simp only [tablePath, String.append_assoc, -String.reduceAppend]

lemma verbatim_raw_iff (h : parseBigQueryResourceId resource.resourceId = .ok table) :
    Verbatim (tablePath table ++ "_encrypted_raw").toList ↔ Verbatim resource.resourceId.toList := by
  have hsuffix : Verbatim "_encrypted_raw".toList := by decide
  rw [verbatim_resourceId_iff h, String.toList_append]
  exact List.forall_mem_append.trans (and_iff_left hsuffix)

end Texts

section Erasure

variable {resource : Deletion.PiiRegistryEntry} {userId tenantId : String} {query : Query}

lemma redaction_confined_iff (h : redactionQuery resource userId tenantId = .ok query) :
    RedactionConfined resource userId tenantId query ↔
      Quotable resource (scopeColumns resource ++ resource.piiFields) := by
  obtain ⟨-, hfields, userIdColumn, table, hcolumn, hsafe, htable, rfl⟩ := redactionQuery_ok_iff.mp h
  obtain ⟨huser, hsafe⟩ := List.forall_mem_cons.mp hsafe
  obtain ⟨htenant, hnames⟩ := List.forall_mem_append.mp hsafe
  have hresource := (truthy_eq_some_iff.mp hcolumn).1
  have htruthy := truthy_of_safe htenant
  have htext : "UPDATE `" ++ table.projectId ++ "." ++ table.datasetId ++ "." ++ table.tableId ++ "` SET "
      ++ ", ".intercalate (resource.piiFields.map (· ++ " = NULL")) ++ " WHERE "
      ++ whereUser userIdColumn resource.tenantIdColumn =
        updateText (tablePath table) resource.piiFields (scope userIdColumn resource.tenantIdColumn) := by
    rw [whereUser_eq htruthy]
    change _ = "UPDATE `" ++ tablePath table ++ "` SET " ++ Sql.assignmentsText _ ++ " WHERE " ++ conjunctionText _
    simp only [tablePath, String.append_assoc]
    rfl
  have hne : tablePath table ++ "" ≠ "" := tablePath_append_ne
  rw [String.append_empty] at hne
  have hiff := updateText_confined_iff hfields (fun column hm => isSafeIdentifier_eq ▸ hnames column hm)
    (worded_scope huser htenant) hne
  rw [← htext, ← verbatim_resourceId_iff htable, unreserved_scope_iff hresource] at hiff
  constructor
  · rintro ⟨table', assignments, conditions, htable', hstatement, hassigned, hrestricted⟩
    obtain rfl := Except.ok.inj (htable.symm.trans htable')
    obtain ⟨hverbatim, hunreserved, hscope⟩ := hiff.mp
      ⟨assignments, conditions, hstatement, hassigned, (restricted_iff hresource htruthy).mp hrestricted⟩
    exact ⟨hverbatim, List.forall_mem_append.mpr ⟨hscope, hunreserved⟩⟩
  · rintro ⟨hverbatim, hcolumns⟩
    obtain ⟨hscope, hunreserved⟩ := List.forall_mem_append.mp hcolumns
    obtain ⟨assignments, conditions, hstatement, hassigned, hrestricted⟩ := hiff.mpr ⟨hverbatim, hunreserved, hscope⟩
    exact ⟨table, assignments, conditions, htable, hstatement, hassigned,
      (restricted_iff hresource htruthy).mpr hrestricted⟩

lemma copy_deletion_confined_iff (h : encryptedCopyQuery resource userId tenantId = .ok query) :
    CopyDeletionConfined resource userId tenantId query ↔ Quotable resource (scopeColumns resource) := by
  obtain ⟨-, userIdColumn, table, hcolumn, hsafe, htable, rfl⟩ := encryptedCopyQuery_ok_iff.mp h
  obtain ⟨huser, htenant⟩ := List.forall_mem_cons.mp hsafe
  have hresource := (truthy_eq_some_iff.mp hcolumn).1
  have htruthy := truthy_of_safe htenant
  have htext := @encryptedCopy_text userIdColumn resource.tenantIdColumn table htruthy
  have hiff := deleteText_confined_iff (worded_scope huser htenant)
    (tablePath_append_ne : tablePath table ++ "_encrypted_raw" ≠ "")
  rw [← htext, verbatim_raw_iff htable, unreserved_scope_iff hresource] at hiff
  constructor
  · rintro ⟨table', conditions, htable', hstatement, hrestricted⟩
    obtain rfl := Except.ok.inj (htable.symm.trans htable')
    obtain ⟨hverbatim, hscope⟩ :=
      hiff.mp ⟨conditions, hstatement, (restricted_iff hresource htruthy).mp hrestricted⟩
    exact ⟨hverbatim, hscope⟩
  · rintro ⟨hverbatim, hscope⟩
    obtain ⟨conditions, hstatement, hrestricted⟩ := hiff.mpr ⟨hverbatim, hscope⟩
    exact ⟨table, conditions, htable, hstatement, (restricted_iff hresource htruthy).mpr hrestricted⟩

theorem erasure_confined_iff (resource : Deletion.PiiRegistryEntry) (userId tenantId : String) :
    (∀ query, redactionQuery resource userId tenantId = .ok query →
      (RedactionConfined resource userId tenantId query ↔
        Quotable resource (scopeColumns resource ++ resource.piiFields))) ∧
    ∀ query, encryptedCopyQuery resource userId tenantId = .ok query →
      (CopyDeletionConfined resource userId tenantId query ↔ Quotable resource (scopeColumns resource)) :=
  ⟨fun _ h => redaction_confined_iff h, fun _ h => copy_deletion_confined_iff h⟩

theorem erasure_confined_protected :
    RedactionConfined (manualEntry protectedDeclaration "acme" "2026-01-01T00:00:00.000Z" none none).resource
        "ada" "acme" ⟨"UPDATE `p.d.users` SET email = NULL WHERE id = @userId", "ada", none⟩ ∧
      CopyDeletionConfined (manualEntry protectedDeclaration "acme" "2026-01-01T00:00:00.000Z" none none).resource
        "ada" "acme" ⟨"DELETE FROM `p.d.users_encrypted_raw` WHERE id = @userId", "ada", none⟩ := by
  obtain ⟨hredaction, hcopy⟩ := erasure_confined_iff
    (manualEntry protectedDeclaration "acme" "2026-01-01T00:00:00.000Z" none none).resource "ada" "acme"
  exact ⟨(hredaction _ (by decide +kernel)).mpr ⟨by decide +kernel, by decide +kernel⟩,
    (hcopy _ (by decide +kernel)).mpr ⟨by decide +kernel, by decide +kernel⟩⟩

def smuggledDeclaration : PiiRegistryDeclarationInput :=
  { protectedDeclaration with
    resourceId := some "bigquery:p.d.t`SET/**/email=NULL/**/WHERE/**/true#"
    sourceRedactionStrategies := some ["REDACT_IN_PLACE"] }

def smuggledQuery : Query where
  text := "UPDATE `p.d.t`SET/**/email=NULL/**/WHERE/**/true#` SET email = NULL WHERE id = @userId"
  userId := "ada"
  tenantId := none

theorem erasure_reaches_every_row : ∃ entry : PiiRegistryEntry,
    buildManualEntry smuggledDeclaration "acme" "2026-01-01T00:00:00.000Z" none none = .ok entry ∧
    redactionQuery entry.resource "ada" "acme" = .ok smuggledQuery ∧
    statement smuggledQuery.text = some (.update "p.d.t" [("email", .constant (.keyword "NULL"))]
      [.single (.constant (.keyword "TRUE"))]) ∧
    ¬ RedactionConfined entry.resource "ada" "acme" smuggledQuery := by
  have hquery : redactionQuery (manualEntry smuggledDeclaration "acme" "2026-01-01T00:00:00.000Z" none none).resource
      "ada" "acme" = .ok smuggledQuery := by decide +kernel
  refine ⟨_, buildManualEntry_accepts (by decide +kernel), hquery, by decide +kernel, fun hconfined => ?_⟩
  have hquotable := (redaction_confined_iff hquery).mp hconfined
  exact (hquotable.resourceId backtick (by decide +kernel)).1 rfl

end Erasure

end ChameleonVault.PiiRegistry
