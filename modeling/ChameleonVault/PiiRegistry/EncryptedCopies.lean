import ChameleonVault.DecryptedViews.ViewSql
import ChameleonVault.Sql.Windows

/-! What the deduplicating view of an encrypted copy shows of each tenant's users, before and after a deletion. -/

namespace ChameleonVault.PiiRegistry

open Sql hiding Table
open Sql.Piece (fixed name)
open KeyRegistry (truthy truthy_eq_some_iff)
open Deletion (Query TableRef parseBigQueryResourceId encryptedCopyQuery encryptedCopyQuery_ok_iff isSafeIdentifier
  hasSourceRedactionStrategy)
open DecryptedViews (quotedName render_quotedName)

section Texts

def rawPath (copy : EncryptedCopyTable) : String := tablePath copy.source ++ "_encrypted_raw"

def dedupQuery (copy : EncryptedCopyTable) : Windowed where
  table := rawPath copy
  partitionBy := copy.userIdColumn
  orderBy := "synced_at"

variable {copy : EncryptedCopyTable} {resource : PiiRegistryEntry} {userId tenantId : String} {query : Query}

namespace Texts

def selectAll : Fixed := ⟨"SELECT * FROM ", by decide +kernel⟩
def qualify : Fixed := ⟨"\nQUALIFY ROW_NUMBER() OVER (PARTITION BY ", by decide +kernel⟩
def latestFirst : String := "ORDER BY synced_at DESC) = 1"

end Texts

def dedupPieces (copy : EncryptedCopyTable) : List Piece :=
  [fixed Texts.selectAll, quotedName (rawPath copy), fixed Texts.qualify, name copy.userIdColumn .space]

lemma rawRef_eq : copy.rawRef = "`" ++ rawPath copy ++ "`" := by
  simp [EncryptedCopyTable.rawRef, rawPath, quoted, tablePath, String.append_assoc]

lemma toList_dedupViewSql :
    copy.dedupViewSql.toList = (dedupPieces copy).flatMap Piece.render ++ Texts.latestFirst.toList := by
  have hqualify : "\nQUALIFY ROW_NUMBER() OVER (PARTITION BY " = "\n" ++ "QUALIFY ROW_NUMBER() OVER (PARTITION BY " := by
    simp only [String.reduceAppend]
  have hlatest : " ORDER BY synced_at DESC) = 1" = " " ++ "ORDER BY synced_at DESC) = 1" := by
    simp only [String.reduceAppend]
  have hspace : [' '] = " ".toList := by rfl
  simp only [dedupPieces, List.flatMap_cons, List.flatMap_nil, render_quotedName]
  simp only [EncryptedCopyTable.dedupViewSql, joinLines, DecryptedViews.toList_intercalate_cons,
    DecryptedViews.toList_intercalate_singleton, rawRef_eq, Piece.render, Separator.space, Texts.selectAll,
    Texts.qualify, Texts.latestFirst, hqualify, hlatest, hspace, String.toList_append, List.append_assoc,
    List.append_nil]

lemma tokens_dedupPieces : (dedupQuery copy).tokens = (dedupPieces copy).flatMap Piece.tokens ++
    [.keyword "ORDER", .keyword "BY", .identifier "synced_at", .keyword "DESC", .symbol ')', .symbol '=',
      .number "1"] := by
  have hselect : Texts.selectAll.tokens = [.keyword "SELECT", .symbol '*', .keyword "FROM"] := by decide +kernel
  have hqualify : Texts.qualify.tokens = [.keyword "QUALIFY", .identifier "ROW_NUMBER", .symbol '(', .symbol ')',
    .keyword "OVER", .symbol '(', .keyword "PARTITION", .keyword "BY"] := by decide +kernel
  simp [Windowed.tokens, dedupQuery, dedupPieces, Piece.tokens, quotedName, contents, hselect, hqualify,
    Separator.space]

lemma plain_rawPath_iff : Sql.Plain .back (rawPath copy).toList ↔ Verbatim (rawPath copy).toList :=
  DecryptedViews.plain_back_iff fun h => tablePath_append_ne (String.toList_eq_nil_iff.mp h)

lemma ensureEncryptedCopyTable_some (h : ensureEncryptedCopyTable resource = .ok (some copy)) :
    hasSourceRedactionStrategy resource.resource .encryptedCopy = true := by
  rw [ensureEncryptedCopyTable] at h
  split at h
  · cases h
  · rename_i hselected
    simpa using hselected

/-- The text of the view reads as the query exactly when the resource id and the column stand for themselves. -/
lemma lex_dedupViewSql_iff (h : ensureEncryptedCopyTable resource = .ok (some copy)) :
    lex copy.dedupViewSql = some (dedupQuery copy).tokens ↔ Quotable resource.resource [copy.userIdColumn] := by
  obtain ⟨-, -, userIdColumn, source, -, hsafe, hsource, rfl⟩ :=
    (ensureEncryptedCopyTable_ok_iff (ensureEncryptedCopyTable_some h)).mp h
  have hname : isName userIdColumn.toList = true := isSafeIdentifier_eq ▸ (List.forall_mem_cons.mp hsafe).1
  have htail : lexFrom .between Texts.latestFirst.toList = some [.keyword "ORDER", .keyword "BY",
    .identifier "synced_at", .keyword "DESC", .symbol ')', .symbol '=', .number "1"] := by decide +kernel
  have hsound : (∀ piece ∈ dedupPieces ⟨source, encryptedFieldsOf resource, userIdColumn⟩, piece.Sound) ↔
      Sql.Plain .back (rawPath ⟨source, encryptedFieldsOf resource, userIdColumn⟩).toList ∧
        isReserved userIdColumn = false := by
    simp [dedupPieces, Piece.Sound, quotedName, hname]
  have hverbatim : Verbatim (rawPath ⟨source, encryptedFieldsOf resource, userIdColumn⟩).toList ↔
      Verbatim resource.resourceId.toList := @verbatim_raw_iff resource.resource source hsource
  rw [lex, toList_dedupViewSql, tokens_dedupPieces, lexFrom_pieces_iff htail, hsound, plain_rawPath_iff, hverbatim]
  constructor
  · rintro ⟨hresource, hreserved⟩
    exact ⟨hresource, List.forall_mem_singleton.mpr hreserved⟩
  · rintro ⟨hresource, hcolumns⟩
    exact ⟨hresource, hcolumns userIdColumn List.mem_cons_self⟩

/-- The deletion reads as one of the rows of the scope, from the table that the view is over. -/
lemma statement_encryptedCopyQuery (h : ensureEncryptedCopyTable resource = .ok (some copy))
    (hquery : encryptedCopyQuery resource.resource userId tenantId = .ok query)
    (hquotable : Quotable resource.resource (scopeColumns resource.resource)) : statement query.text =
      some (.delete (rawPath copy) ((scope copy.userIdColumn resource.tenantIdColumn).map equality)) := by
  obtain ⟨-, -, userIdColumn, source, huser, -, hsource, rfl⟩ :=
    (ensureEncryptedCopyTable_ok_iff (ensureEncryptedCopyTable_some h)).mp h
  obtain ⟨-, userIdColumn', source', huser', hsafe, hsource', rfl⟩ := encryptedCopyQuery_ok_iff.mp hquery
  obtain rfl := Option.some.inj (huser.symm.trans huser')
  obtain rfl := Except.ok.inj (hsource.symm.trans hsource')
  obtain ⟨hname, htenant⟩ := List.forall_mem_cons.mp hsafe
  have hcolumns := (unreserved_scope_iff (truthy_eq_some_iff.mp huser).1).mpr hquotable.columns
  rw [encryptedCopy_text (truthy_of_safe htenant)]
  exact statement_deleteText_of_unreserved (worded_scope hname htenant) tablePath_append_ne
    ((verbatim_raw_iff hsource).mpr hquotable.resourceId) hcolumns

end Texts

section Contents

variable {ρ : Type} (resource : PiiRegistryEntry) (copy : EncryptedCopyTable) (tenantIdColumn : String)
  (raw : Sql.Table ρ)

def parameters (query : Query) : String → Value
  | "userId" => .text query.userId
  | "tenantId" => query.tenantId.elim .null .text
  | _ => .null

def afterDeletion (query : Query) : Sql.Table ρ :=
  raw.delete (parameters query) (scope copy.userIdColumn resource.tenantIdColumn)

def subjectOf (r : ρ) : Value × Value := (raw.read r tenantIdColumn, raw.read r copy.userIdColumn)

def syncedAt (r : ρ) : WithBot ℤ := (raw.read r "synced_at").moment

structure KeepsTenantsApart : Prop where
  shown : ∀ answer, (dedupQuery copy).Answers raw answer → (∀ r ∈ answer, r ∈ raw.rows) ∧
    ∀ r ∈ raw.rows, ∃ shown,
      answer.filter (subjectOf copy tenantIdColumn raw · = subjectOf copy tenantIdColumn raw r) = [shown] ∧
      ∀ r' ∈ raw.rows, subjectOf copy tenantIdColumn raw r' = subjectOf copy tenantIdColumn raw r →
        syncedAt raw r' ≤ syncedAt raw shown
  deleted : ∀ userId tenantId, ∃ query, encryptedCopyQuery resource.resource userId tenantId = .ok query ∧
    (∀ answer, (dedupQuery copy).Answers (afterDeletion resource copy raw query) answer →
      ∀ r ∈ answer, subjectOf copy tenantIdColumn raw r ≠ (.text tenantId, .text userId)) ∧
    ∀ answer, (dedupQuery copy).Answers (afterDeletion resource copy raw query) answer ↔
      ∃ before, (dedupQuery copy).Answers raw before ∧
        answer = before.filter (subjectOf copy tenantIdColumn raw · ≠ (.text tenantId, .text userId))

/-- No user id is one of two tenants. -/
def UsersOfOneTenant : Prop :=
  ∀ r ∈ raw.rows, ∀ r' ∈ raw.rows, raw.read r copy.userIdColumn = raw.read r' copy.userIdColumn →
    raw.read r tenantIdColumn = raw.read r' tenantIdColumn

end Contents

section Proofs

variable {ρ : Type} {resource : PiiRegistryEntry} {copy : EncryptedCopyTable} {tenantIdColumn userId tenantId : String}
  {raw : Sql.Table ρ} {query : Query}

lemma exists_encryptedCopyQuery (h : ensureEncryptedCopyTable resource = .ok (some copy))
    (htenant : resource.tenantIdColumn = some tenantIdColumn) (userId tenantId : String) :
    ∃ query, encryptedCopyQuery resource.resource userId tenantId = .ok query ∧ query.userId = userId ∧
      query.tenantId = some tenantId := by
  obtain ⟨hsystem, -, userIdColumn, source, huser, hsafe, hsource, rfl⟩ :=
    (ensureEncryptedCopyTable_ok_iff (ensureEncryptedCopyTable_some h)).mp h
  have hnames : ∀ identifier ∈ userIdColumn :: resource.tenantIdColumn.toList, isSafeIdentifier identifier = true :=
    fun identifier hm => hsafe identifier ((List.subset_append_left (userIdColumn :: _) _) hm)
  have htruthy := truthy_of_safe (List.forall_mem_cons.mp hnames).2
  refine ⟨_, encryptedCopyQuery_ok_iff.mpr ⟨hsystem, userIdColumn, source, huser, hnames, hsource, rfl⟩, rfl, ?_⟩
  have hcolumn : resource.resource.tenantIdColumn = some tenantIdColumn := htenant
  have htruthy' : truthy resource.resource.tenantIdColumn = resource.resource.tenantIdColumn := htruthy
  rw [Deletion.queryParams, htruthy', hcolumn, Option.map_some]

lemma satisfies_scope_iff (htenant : resource.tenantIdColumn = some tenantIdColumn) (hu : query.userId = userId)
    (ht : query.tenantId = some tenantId) {r : ρ} :
    raw.satisfies (parameters query) (scope copy.userIdColumn resource.tenantIdColumn) r = true ↔
      subjectOf copy tenantIdColumn raw r = (.text tenantId, .text userId) := by
  have huser : parameters query "userId" = .text userId := congrArg Value.text hu
  have htenantId : parameters query "tenantId" = .text tenantId := by
    change query.tenantId.elim Value.null Value.text = _
    rw [ht]
    rfl
  have hequal (value : Value) (text : String) : value ≠ .null ∧ value = .text text ↔ value = .text text := by
    refine and_iff_right_of_imp ?_
    rintro rfl
    nofun
  rw [htenant, Sql.Table.satisfies, subjectOf, Prod.mk.injEq]
  simp only [scope, Option.map_some, Option.toList_some, List.all_cons, List.all_nil, Bool.and_true, Bool.and_eq_true,
    decide_eq_true_iff, huser, htenantId, hequal]
  exact and_comm

lemma rows_afterDeletion (htenant : resource.tenantIdColumn = some tenantIdColumn)
    (hu : query.userId = userId) (ht : query.tenantId = some tenantId) :
    (afterDeletion resource copy raw query).rows =
      raw.rows.filter (subjectOf copy tenantIdColumn raw · ≠ (.text tenantId, .text userId)) := by
  refine List.filter_congr fun r _ => ?_
  rw [Bool.eq_iff_iff, decide_eq_true_iff, ne_eq, ← satisfies_scope_iff htenant hu ht, Bool.not_eq_true',
    Bool.not_eq_true]

theorem encrypted_copy_apart_iff (h : ensureEncryptedCopyTable resource = .ok (some copy))
    (htenant : resource.tenantIdColumn = some tenantIdColumn) (raw : Sql.Table ρ) :
    (lex copy.dedupViewSql = some (dedupQuery copy).tokens ↔ Quotable resource.resource [copy.userIdColumn]) ∧
    (∀ userId tenantId query, encryptedCopyQuery resource.resource userId tenantId = .ok query →
      Quotable resource.resource (scopeColumns resource.resource) → statement query.text =
        some (.delete (rawPath copy) ((scope copy.userIdColumn resource.tenantIdColumn).map equality))) ∧
    (KeepsTenantsApart resource copy tenantIdColumn raw ↔ UsersOfOneTenant copy tenantIdColumn raw) := by
  refine ⟨lex_dedupViewSql_iff h, fun _ _ _ hquery => statement_encryptedCopyQuery h hquery, ?_⟩
  have hparts : (∀ r ∈ raw.rows, ∀ r' ∈ raw.rows, raw.read r copy.userIdColumn = raw.read r' copy.userIdColumn →
      subjectOf copy tenantIdColumn raw r = subjectOf copy tenantIdColumn raw r') ↔
        UsersOfOneTenant copy tenantIdColumn raw :=
    forall₅_congr fun r _ r' _ hsame => by simp [subjectOf, hsame]
  have hlatest := @latest_of_finer_iff ρ Value (Value × Value) (WithBot ℤ) _ _ _ (raw.read · copy.userIdColumn)
    (syncedAt raw) raw.rows (subjectOf copy tenantIdColumn raw) fun r _ r' _ hsame => (Prod.mk.inj hsame).2
  rw [hparts] at hlatest
  constructor
  · intro hapart
    exact hlatest.mp fun answer hanswer => (hapart.shown answer hanswer).2
  · intro hone
    refine ⟨fun answer hanswer => ⟨hanswer.mem, hlatest.mpr hone answer hanswer⟩, fun userId tenantId => ?_⟩
    obtain ⟨query, hquery, hu, ht⟩ := exists_encryptedCopyQuery h htenant userId tenantId
    have hrows := @rows_afterDeletion _ _ copy _ _ _ raw _ htenant hu ht
    refine ⟨query, hquery, fun answer hanswer r hr => ?_, fun answer => ?_⟩
    · have hkept := hanswer.mem r hr
      rw [hrows] at hkept
      exact of_decide_eq_true (List.mem_filter.mp hkept).2
    · change LatestOfEach _ _ (afterDeletion resource copy raw query).rows _ ↔ _
      rw [hrows]
      exact latestOfEach_filter_iff fun r hr r' hr' hsame => by rw [hparts.mpr hone r hr r' hr' hsame]

end Proofs

section Users

def copiedDeclaration : PiiRegistryDeclarationInput :=
  { protectedDeclaration with
    tenantIdColumn := some "tenant_id"
    sourceRedactionStrategies := some ["ENCRYPTED_COPY"] }

def copiedResource : PiiRegistryEntry := manualEntry copiedDeclaration "acme" "2026-01-01T00:00:00.000Z" none none

def usersCopy : EncryptedCopyTable := ⟨⟨"p", "d", "users"⟩, ["email"], "id"⟩

structure CopyRow where
  tenantId : String
  id : String
  syncedAt : ℤ
  deriving DecidableEq

def CopyRow.read (row : CopyRow) : String → Value
  | "tenant_id" => .text row.tenantId
  | "id" => .text row.id
  | "synced_at" => .time row.syncedAt
  | _ => .null

def rawTable (rows : List CopyRow) : Sql.Table CopyRow := ⟨rows, CopyRow.read⟩

lemma ensureEncryptedCopyTable_copied : ensureEncryptedCopyTable copiedResource = .ok (some usersCopy) := by
  refine (ensureEncryptedCopyTable_ok_iff (by decide +kernel)).mpr ?_
  exact ⟨rfl, by decide +kernel, "id", ⟨"p", "d", "users"⟩, by decide +kernel, by decide +kernel, by decide +kernel,
    rfl⟩

theorem encrypted_copy_apart_users : KeepsTenantsApart copiedResource usersCopy "tenant_id"
    (rawTable [⟨"acme", "u1", 1⟩, ⟨"globex", "u2", 2⟩, ⟨"acme", "u1", 3⟩]) := by
  refine (encrypted_copy_apart_iff ensureEncryptedCopyTable_copied rfl _).2.2.mpr ?_
  rw [UsersOfOneTenant]
  decide +kernel

def overlapping : Sql.Table CopyRow := rawTable [⟨"acme", "u1", 1⟩, ⟨"globex", "u1", 2⟩]

/-- The row of the one tenant is hidden by the other's, and shown once that is deleted. -/
theorem encrypted_copy_hides_tenant :
    buildManualEntry copiedDeclaration "acme" "2026-01-01T00:00:00.000Z" none none = .ok copiedResource ∧
    ensureEncryptedCopyTable copiedResource = .ok (some usersCopy) ∧
    (dedupQuery usersCopy).Answers overlapping [⟨"globex", "u1", 2⟩] ∧
    (∃ query, encryptedCopyQuery copiedResource.resource "u1" "globex" = .ok query ∧
      (dedupQuery usersCopy).Answers (afterDeletion copiedResource usersCopy overlapping query)
        [⟨"acme", "u1", 1⟩]) ∧
    ¬KeepsTenantsApart copiedResource usersCopy "tenant_id" overlapping := by
  have hbefore : (dedupQuery usersCopy).Answers overlapping [⟨"globex", "u1", 2⟩] :=
    ⟨by decide, by decide, by decide, by decide⟩
  obtain ⟨query, hquery, hu, ht⟩ := exists_encryptedCopyQuery ensureEncryptedCopyTable_copied rfl "u1" "globex"
  have hrows : (afterDeletion copiedResource usersCopy overlapping query).rows = [⟨"acme", "u1", 1⟩] :=
    (rows_afterDeletion rfl hu ht).trans (by decide)
  have hafter : afterDeletion copiedResource usersCopy overlapping query = rawTable [⟨"acme", "u1", 1⟩] :=
    congrArg (Sql.Table.mk · CopyRow.read) hrows
  refine ⟨buildManualEntry_accepts (by decide +kernel), ensureEncryptedCopyTable_copied, hbefore, ⟨query, hquery, ?_⟩,
    fun hapart => ?_⟩
  · rw [hafter]
    exact ⟨by decide, by decide, by decide, by decide⟩
  · obtain ⟨shown, hshown, -⟩ := (hapart.shown _ hbefore).2 ⟨"acme", "u1", 1⟩ (by decide)
    exact absurd (hshown.symm.trans (by decide : _ = [])) nofun

end Users

end ChameleonVault.PiiRegistry
