import ChameleonVault.DecryptedViews.ViewSql

/-! The statement behind a deidentified view, and what the statements of both kinds of view rest on. -/

namespace ChameleonVault.DecryptedViews

open Sql
open Sql.Piece (fixed written name column)
open KeyRegistry (truthy truthy_eq_some_iff)
open Deletion (TableRef bind_ok_iff hasSourceRedactionStrategy)
open PiiRegistry (ShadowView SourceRedactionService PiiRegistryEntry buildPiiVaultPivotColumns encryptedFieldsOf
  ensureShadowCopy ensureShadowCopy_ok_iff ensureShadowCopy_some escapeSqlStringLiteral isSafeIdentifier_eq joinLines manualEntry
  protectedDeclaration quoted tablePath tablePath_append_ne verbatim_resourceId_iff viewsEnabled)

section ShadowCopies

variable {view : ShadowView}

namespace Texts

def withPii : Fixed := ⟨"WITH decrypted_pii AS (\n  SELECT\n    user_id,\n    ", by decide +kernel⟩
def innerGap : Fixed := ⟨"\n    ", by decide +kernel⟩
def innerFrom : Fixed := ⟨"  FROM ", by decide +kernel⟩
def innerWhere : Fixed := ⟨"\n  WHERE tenant_id = ", by decide +kernel⟩
def outerSelect : Fixed := ⟨"\n  GROUP BY user_id\n)\nSELECT s.* EXCEPT (", by decide +kernel⟩
def blank : Fixed := ⟨" ", by decide +kernel⟩
def fromPii : Fixed := ⟨"d.", by decide +kernel⟩
def joinPii : Fixed := ⟨" s\nLEFT JOIN decrypted_pii d ON s.", by decide +kernel⟩
def onUser : String := "= d.user_id"
def onUserWhere : Fixed := ⟨"= d.user_id\nWHERE s.", by decide +kernel⟩
def equals : Fixed := ⟨"= ", by decide +kernel⟩

end Texts

def shadowPieces (view : ShadowView) : List Piece :=
  fixed Texts.withPii :: listed (pivot view.batchDecryptFunctionRef) Texts.innerGap .newline view.fields
    ++ [fixed Texts.innerFrom, quotedName (tablePath view.piiVault), fixed Texts.innerWhere, literal view.tenantId,
      fixed Texts.outerSelect]
    ++ listed (fun field separator => [name field separator]) Texts.blank .closing view.fields ++ fixed Texts.next ::
      listed (fun field separator => [fixed Texts.fromPii, column field separator]) Texts.blank .newline view.fields
    ++ [fixed Texts.fromTable, quotedName (tablePath view.source), fixed Texts.joinPii, column view.userIdColumn .space]

def filterPieces (view : ShadowView) (tenantIdColumn : String) : List Piece :=
  [fixed Texts.onUserWhere, column tenantIdColumn .space, fixed Texts.equals, literal view.tenantId]

/-- What the statement of the deidentified view is meant to be. -/
def shadowTokens (view : ShadowView) : List Token :=
  (shadowPieces view).flatMap Piece.tokens ++ match truthy view.tenantIdColumn with
    | some tenantIdColumn => (filterPieces view tenantIdColumn).flatMap Piece.tokens
    | none => [.symbol '=', .identifier "d", .symbol '.', .identifier "user_id"]

lemma lexFrom_onUser : lexFrom .between Texts.onUser.toList =
    some [.symbol '=', .identifier "d", .symbol '.', .identifier "user_id"] := by
  decide +kernel

lemma append_ne_empty {first second : String} (h : first ≠ "") : first ++ second ≠ "" := by
  intro he
  have hlist := congrArg String.toList he
  rw [String.toList_append] at hlist
  exact h (String.toList_eq_nil_iff.mp (List.append_eq_nil_iff.mp hlist).1)

lemma toList_joinLines_concat {lines : List String} {last : String} (hne : lines ≠ []) :
    (joinLines (lines ++ [last])).toList = (joinLines lines).toList ++ ("\n" ++ last).toList := by
  unfold joinLines
  induction lines with
  | nil => exact absurd rfl hne
  | cons first lines ih =>
    cases lines with
    | nil =>
      simp only [List.cons_append, List.nil_append, toList_intercalate_cons, toList_intercalate_singleton,
        String.toList_append, List.append_assoc]
    | cons second lines =>
      rw [List.cons_append, List.cons_append, toList_intercalate_cons, ← List.cons_append, ih nofun,
        toList_intercalate_cons, List.append_assoc, List.append_assoc, List.append_assoc]

lemma toList_joinLines_filter {lines : List String} {last : String} (hne : lines ≠ [])
    (hlines : ∀ line ∈ lines, line ≠ "") :
    (joinLines ((lines ++ [last]).filter (· ≠ ""))).toList =
      (joinLines lines).toList ++ (if last = "" then "" else "\n" ++ last).toList := by
  have hkept : lines.filter (· ≠ "") = lines := List.filter_eq_self.mpr fun line hm => decide_eq_true (hlines line hm)
  rw [List.filter_append, hkept]
  by_cases hlast : last = ""
  · simp [hlast]
  · have hsingle : [last].filter (· ≠ "") = [last] := List.filter_cons_of_pos (decide_eq_true hlast)
    rw [hsingle, toList_joinLines_concat hne, if_neg hlast]

def shadowLines (view : ShadowView) : List String := [
  "WITH decrypted_pii AS (",
  "  SELECT",
  "    user_id,",
  "    " ++ ",\n    ".intercalate (buildPiiVaultPivotColumns view.fields view.batchDecryptFunctionRef),
  "  FROM " ++ quoted view.piiVault "",
  "  WHERE tenant_id = '" ++ escapeSqlStringLiteral view.tenantId ++ "'",
  "  GROUP BY user_id",
  ")",
  "SELECT s.* EXCEPT (" ++ ", ".intercalate view.fields ++ "), " ++ ", ".intercalate (view.fields.map ("d." ++ ·)),
  "FROM " ++ quoted view.source "" ++ " s",
  "LEFT JOIN decrypted_pii d ON s." ++ view.userIdColumn ++ " = d.user_id"]

def tenantFilter (view : ShadowView) : String :=
  match truthy view.tenantIdColumn with
  | some tenantIdColumn => "WHERE s." ++ tenantIdColumn ++ " = '" ++ escapeSqlStringLiteral view.tenantId ++ "'"
  | none => ""

lemma toList_viewSql_lines : view.viewSql.toList = (joinLines (shadowLines view)).toList ++
    (if tenantFilter view = "" then "" else "\n" ++ tenantFilter view).toList := by
  refine @toList_joinLines_filter (shadowLines view) (tenantFilter view) nofun ?_
  simp only [shadowLines, List.forall_mem_cons]
  refine ⟨by decide, by decide, by decide, ?_, ?_, ?_, by decide, by decide, ?_, ?_, ?_, nofun⟩
  · exact append_ne_empty (by decide)
  · exact append_ne_empty (by decide)
  · exact append_ne_empty (append_ne_empty (by decide))
  · exact append_ne_empty (append_ne_empty (append_ne_empty (by decide)))
  · exact append_ne_empty (append_ne_empty (by decide))
  · exact append_ne_empty (append_ne_empty (by decide))

lemma toList_shadowLines (hne : view.fields ≠ []) : (joinLines (shadowLines view)).toList =
    (shadowPieces view).flatMap Piece.render ++ Texts.onUser.toList := by
  have hwith : "WITH decrypted_pii AS (\n  SELECT\n    user_id,\n    " = "WITH decrypted_pii AS (" ++ "\n" ++ "  SELECT" ++
      "\n" ++ "    user_id," ++ "\n" ++ "    " := by simp only [String.reduceAppend]
  have hgap : "," ++ "\n    " = ",\n    " := by simp only [String.reduceAppend]
  have hwhere : "\n  WHERE tenant_id = " = "\n" ++ "  WHERE tenant_id = " := by simp only [String.reduceAppend]
  have hopen : "  WHERE tenant_id = '" = "  WHERE tenant_id = " ++ "'" := by simp only [String.reduceAppend]
  have hselect : "\n  GROUP BY user_id\n)\nSELECT s.* EXCEPT (" =
      "\n" ++ "  GROUP BY user_id" ++ "\n" ++ ")" ++ "\n" ++ "SELECT s.* EXCEPT (" := by simp only [String.reduceAppend]
  have hclose : "), " = ")" ++ ", " := by simp only [String.reduceAppend]
  have hcomma : "," ++ " " = ", " := by simp only [String.reduceAppend]
  have hjoin : " s\nLEFT JOIN decrypted_pii d ON s." = " s" ++ "\n" ++ "LEFT JOIN decrypted_pii d ON s." := by
    simp only [String.reduceAppend]
  have huser : " = d.user_id" = " " ++ "= d.user_id" := by simp only [String.reduceAppend]
  have hnewline : ['\n'] = "\n".toList := by rfl
  have hclosing : [')'] = ")".toList := by rfl
  have hspace : [' '] = " ".toList := by rfl
  have hpivots := @render_listed (pivot view.batchDecryptFunctionRef) Texts.innerGap .newline view.fields
    (pivotText view.batchDecryptFunctionRef) (fun _ _ => render_pivot) hne
  have hexcept := @render_listed (fun field separator => [name field separator]) Texts.blank .closing view.fields
    (fun field => field) (fun _ _ => by simp [Piece.render]) hne
  have hjoined := @render_listed (fun field separator => [fixed Texts.fromPii, column field separator]) Texts.blank
    .newline view.fields ("d." ++ ·) (fun _ _ => by simp [Piece.render, Texts.fromPii, String.toList_append]) hne
  rw [List.map_id'] at hexcept
  unfold shadowLines joinLines shadowPieces
  simp only [List.flatMap_append, List.flatMap_cons, List.flatMap_nil, hpivots, hexcept, hjoined, render_literal,
    render_quotedName]
  simp only [Piece.render, Texts.withPii, Texts.innerGap, Texts.innerFrom, Texts.innerWhere, Texts.outerSelect, Texts.blank,
    Texts.next, Texts.fromTable, Texts.joinPii, Texts.onUser, Separator.newline, Separator.closing, Separator.space,
    toList_intercalate_cons, toList_intercalate_singleton, buildPiiVaultPivotColumns_eq, quoted_eq]
  simp only [hwith, hgap, hwhere, hopen, hselect, hclose, hcomma, hjoin, huser, hnewline, hclosing, hspace,
    String.toList_append, List.append_assoc, List.append_nil]

lemma render_filterPieces {tenantIdColumn : String} : (filterPieces view tenantIdColumn).flatMap Piece.render =
    Texts.onUser.toList ++ ("\n" ++
      ("WHERE s." ++ tenantIdColumn ++ " = '" ++ escapeSqlStringLiteral view.tenantId ++ "'")).toList := by
  have hfilter : "= d.user_id\nWHERE s." = "= d.user_id" ++ "\n" ++ "WHERE s." := by simp only [String.reduceAppend]
  have hequals : " = '" = " " ++ "= " ++ "'" := by simp only [String.reduceAppend]
  have hspace : [' '] = " ".toList := by rfl
  unfold filterPieces
  simp only [List.flatMap_cons, List.flatMap_nil, render_literal]
  simp only [Piece.render, Texts.onUserWhere, Texts.onUser, Texts.equals, Separator.space]
  simp only [hfilter, hequals, hspace, String.toList_append, List.append_assoc, List.append_nil]

lemma toList_viewSql (hne : view.fields ≠ []) : view.viewSql.toList =
    match truthy view.tenantIdColumn with
    | some tenantIdColumn => (shadowPieces view ++ filterPieces view tenantIdColumn).flatMap Piece.render ++ []
    | none => (shadowPieces view).flatMap Piece.render ++ Texts.onUser.toList := by
  rw [toList_viewSql_lines, toList_shadowLines hne, tenantFilter]
  cases truthy view.tenantIdColumn with
  | none => simp
  | some tenantIdColumn =>
    have hfilter : "WHERE s." ++ tenantIdColumn ++ " = '" ++ escapeSqlStringLiteral view.tenantId ++ "'" ≠ "" :=
      append_ne_empty (append_ne_empty (append_ne_empty (append_ne_empty (by decide))))
    simp only [if_neg hfilter]
    rw [List.flatMap_append, render_filterPieces, List.append_nil, List.append_assoc]

lemma sound_shadowPieces (hne : view.fields ≠ []) : (∀ piece ∈ shadowPieces view, piece.Sound) ↔
    (Plain .back view.batchDecryptFunctionRef.toList ∧ Plain .back (tablePath view.piiVault).toList ∧
      Plain .back (tablePath view.source).toList) ∧ (∀ field ∈ view.fields, Usable field) ∧
      Plain .single view.tenantId.toList ∧
      isName view.userIdColumn.toList = true := by
  have hpivots := @sound_pivots view.batchDecryptFunctionRef Texts.innerGap .newline view.fields hne
  have hexcept := @sound_listed (fun field separator => [name field separator]) Texts.blank .closing view.fields Usable
    (fun field _ => by simp [Piece.Sound, Usable])
  have hjoined := @sound_listed (fun field separator => [fixed Texts.fromPii, column field separator]) Texts.blank
    .newline view.fields (fun field => isName field.toList = true) (fun field _ => by simp [Piece.Sound])
  simp only [shadowPieces, List.cons_append, List.forall_mem_append, List.forall_mem_cons, hpivots, hexcept, hjoined]
  simp only [Piece.Sound, literal, quotedName]
  constructor
  · rintro ⟨-, ⟨⟨⟨⟨href, -⟩, -, hvault, -, htenant, -⟩, hfields⟩, -, -⟩, -, hsource, -, huser, -⟩
    exact ⟨⟨href, hvault, hsource⟩, hfields, htenant, huser⟩
  · rintro ⟨⟨href, hvault, hsource⟩, hfields, htenant, huser⟩
    exact ⟨trivial, ⟨⟨⟨⟨href, hfields⟩, trivial, hvault, trivial, htenant, trivial, List.forall_mem_nil _⟩, hfields⟩, trivial,
      fun field hf => (hfields field hf).1⟩, trivial, hsource, trivial, huser, List.forall_mem_nil _⟩

lemma sound_filterPieces {tenantIdColumn : String} : (∀ piece ∈ filterPieces view tenantIdColumn, piece.Sound) ↔
    isName tenantIdColumn.toList = true ∧ Plain .single view.tenantId.toList := by
  simp only [filterPieces, List.forall_mem_cons, List.not_mem_nil, Piece.Sound, literal]
  constructor
  · rintro ⟨-, hcolumn, -, htenant, -⟩
    exact ⟨hcolumn, htenant⟩
  · rintro ⟨hcolumn, htenant⟩
    exact ⟨trivial, hcolumn, trivial, htenant, fun _ h => h.elim⟩

lemma lex_viewSql_iff (hne : view.fields ≠ []) : lex view.viewSql = some (shadowTokens view) ↔
    (Plain .back view.batchDecryptFunctionRef.toList ∧ Plain .back (tablePath view.piiVault).toList ∧
      Plain .back (tablePath view.source).toList) ∧ (∀ field ∈ view.fields, Usable field) ∧
      Plain .single view.tenantId.toList ∧ isName view.userIdColumn.toList = true ∧
      ∀ tenantIdColumn, truthy view.tenantIdColumn = some tenantIdColumn → isName tenantIdColumn.toList = true := by
  rw [lex, toList_viewSql hne, shadowTokens]
  cases truthy view.tenantIdColumn with
  | none =>
    refine (lexFrom_pieces_iff lexFrom_onUser).trans ((sound_shadowPieces hne).trans ?_)
    simp
  | some tenantIdColumn =>
    simp only []
    rw [← List.flatMap_append, ← List.append_nil ((shadowPieces view ++ _).flatMap Piece.tokens),
      lexFrom_pieces_iff lexFrom_nil, List.forall_mem_append, sound_shadowPieces hne, sound_filterPieces]
    constructor
    · rintro ⟨⟨hpaths, hfields, htenant, huser⟩, hcolumn, -⟩
      exact ⟨hpaths, hfields, htenant, huser, fun _ h => Option.some.inj h ▸ hcolumn⟩
    · rintro ⟨hpaths, hfields, htenant, huser, hcolumn⟩
      exact ⟨⟨hpaths, hfields, htenant, huser⟩, hcolumn _ rfl, htenant⟩

end ShadowCopies

section Harmless

variable {service : DecryptedViewService} {input : DeclareViewInput} {redaction : SourceRedactionService}
  {resource : PiiRegistryEntry} {table : TableRef} {view : ShadowView}

/-- What a declaration writes into the view stands for itself. -/
structure DeclaredHarmless (service : DecryptedViewService) (input : DeclareViewInput) : Prop where
  batchDecryptFunctionRef : Plain .back service.batchDecryptFunctionRef.toList
  piiVault : Plain .back (tablePath service.piiVault).toList
  fields : ∀ field ∈ input.declaredFields, Usable field
  tenantId : Plain .single input.tenantId.toList

/-- What a resource writes into its deidentified view stands for itself, where it is not checked to be a name. -/
structure ShadowHarmless (redaction : SourceRedactionService) (resource : PiiRegistryEntry) : Prop where
  batchDecryptFunctionRef : ∀ ref ∈ redaction.batchDecryptFunctionRef, Plain .back ref.toList
  piiVault : ∀ table ∈ redaction.piiVault, Plain .back (tablePath table).toList
  resourceId : Verbatim resource.resourceId.toList
  fields : ∀ field ∈ encryptedFieldsOf resource, isReserved field = false
  tenantId : ∀ tenantId ∈ resource.tenantId, Plain .single tenantId.toList

lemma lex_literal_iff {value : String} : lex ("'" ++ escapeSqlStringLiteral value ++ "'") = some [.literal value] ↔
    Plain .single value.toList := by
  have hrender : ("'" ++ escapeSqlStringLiteral value ++ "'").toList = [literal value].flatMap Piece.render ++ [] := by
    rw [List.flatMap_singleton, List.append_nil, render_literal]
  have htokens : [Token.literal value] = [literal value].flatMap Piece.tokens ++ [] := by
    simp [literal, Piece.tokens, contents]
  rw [lex, hrender, htokens, lexFrom_pieces_iff lexFrom_nil]
  simp [literal, Piece.Sound]

lemma lex_declared_iff (hinput : checkInput input = .ok ()) :
    lex (service.buildViewSql input) = some (viewTokens service input) ↔ DeclaredHarmless service input := by
  rw [lex_buildViewSql_iff (checkInput_ok_iff.mp hinput).2.2]
  constructor
  · rintro ⟨⟨href, hvault⟩, hfields, htenant⟩
    exact ⟨href, hvault, hfields, htenant⟩
  · rintro ⟨href, hvault, hfields, htenant⟩
    exact ⟨⟨href, hvault⟩, hfields, htenant⟩

lemma plain_tablePath_iff : Plain .back (tablePath table).toList ↔ Verbatim (tablePath table).toList := by
  have hne : (tablePath table).toList ≠ [] := by
    have hpath := @tablePath_append_ne table ""
    rw [String.append_empty] at hpath
    exact fun h => hpath (String.toList_eq_nil_iff.mp h)
  exact plain_back_iff hne

lemma lex_shadow_iff (h : ensureShadowCopy redaction resource = .ok (some view)) :
    lex view.viewSql = some (shadowTokens view) ↔ ShadowHarmless redaction resource := by
  obtain ⟨hselected, piiVault, batchDecryptFunctionRef, hvault, href⟩ := ensureShadowCopy_some h
  obtain ⟨-, hne, userIdColumn, tenantId, source, -, htenant, hsafe, hsource, rfl⟩ :=
    (ensureShadowCopy_ok_iff hvault href hselected).mp h
  have hnames : ∀ identifier ∈ userIdColumn :: (resource.tenantIdColumn.toList ++ encryptedFieldsOf resource),
      isName identifier.toList = true := fun identifier hm => isSafeIdentifier_eq ▸ hsafe identifier hm
  obtain ⟨htenant, -⟩ := truthy_eq_some_iff.mp htenant
  obtain ⟨href, -⟩ := truthy_eq_some_iff.mp href
  have hverbatim : Verbatim resource.resourceId.toList ↔ Verbatim (tablePath source).toList :=
    @verbatim_resourceId_iff resource.resource _ hsource
  rw [lex_viewSql_iff hne, plain_tablePath_iff, plain_tablePath_iff, ← hverbatim]
  simp only [List.forall_mem_cons, List.forall_mem_append] at hnames
  obtain ⟨huser, hcolumn, hfields⟩ := hnames
  constructor
  · rintro ⟨⟨hfunction, hpii, hresource⟩, husable, hliteral, -, -⟩
    refine ⟨?_, ?_, hresource, fun field hf => (husable field hf).2, ?_⟩
    · rintro ref hm
      rwa [← Option.some.inj (href.symm.trans hm)]
    · rintro table hm
      rw [← Option.some.inj (hvault.symm.trans hm)]
      exact plain_tablePath_iff.mpr hpii
    · rintro tenantId' hm
      rwa [← Option.some.inj (htenant.symm.trans hm)]
  · rintro ⟨hfunction, hpii, hresource, hunreserved, hliteral⟩
    refine ⟨⟨hfunction _ href, plain_tablePath_iff.mp (hpii _ hvault), hresource⟩,
      fun field hf => ⟨hfields field hf, hunreserved field hf⟩, hliteral _ htenant, huser, fun column hc => ?_⟩
    exact hcolumn column (Option.mem_toList.mpr (truthy_eq_some_iff.mp hc).1)

theorem views_injection_free_iff (value : String) (service : DecryptedViewService) (input : DeclareViewInput)
    (redaction : SourceRedactionService) (resource : PiiRegistryEntry) :
    (lex ("'" ++ escapeSqlStringLiteral value ++ "'") = some [.literal value] ↔ Plain .single value.toList) ∧
    (checkInput input = .ok () →
      (lex (service.buildViewSql input) = some (viewTokens service input) ↔ DeclaredHarmless service input)) ∧
    ∀ view, ensureShadowCopy redaction resource = .ok (some view) →
      (lex view.viewSql = some (shadowTokens view) ↔ ShadowHarmless redaction resource) :=
  ⟨lex_literal_iff, lex_declared_iff, fun _ => lex_shadow_iff⟩

def protectedResource : PiiRegistryEntry :=
  manualEntry protectedDeclaration "acme" "2026-01-01T00:00:00.000Z" none none

def protectedView : ShadowView where
  source := ⟨"p", "d", "users"⟩
  piiVault := ⟨"p", "vault", "pii_vault"⟩
  batchDecryptFunctionRef := "p.vault.batch_decrypt"
  fields := ["email"]
  userIdColumn := "id"
  tenantIdColumn := none
  tenantId := "acme"

theorem views_injection_free_acme :
    lex (viewService.buildViewSql (viewInput "acme")) = some (viewTokens viewService (viewInput "acme")) ∧
      lex protectedView.viewSql = some (shadowTokens protectedView) := by
  obtain ⟨-, hdeclared, hshadow⟩ :=
    views_injection_free_iff "acme" viewService (viewInput "acme") viewsEnabled protectedResource
  have hview : ensureShadowCopy viewsEnabled protectedResource = .ok (some protectedView) := by
    refine (ensureShadowCopy_ok_iff rfl (truthy_eq_some_iff.mpr ⟨rfl, by decide⟩) (by decide +kernel)).mpr ?_
    exact ⟨rfl, by decide +kernel, "id", "acme", ⟨"p", "d", "users"⟩, by decide +kernel, by decide +kernel,
      by decide +kernel, by decide +kernel, rfl⟩
  refine ⟨(hdeclared (by decide +kernel)).mpr ?_, (hshadow protectedView hview).mpr ?_⟩
  · exact ⟨by decide +kernel, by decide +kernel, by simp only [Usable]; decide +kernel, by decide +kernel⟩
  · exact ⟨by decide +kernel, by decide +kernel, by decide +kernel, by decide +kernel, by decide +kernel⟩

/-- The backslash escapes the quote after it, and the condition on the tenant holds of every row. -/
theorem tenant_literal_escapes : checkInput (viewInput "x\\' OR TRUE --") = .ok () ∧
    lex ("'" ++ escapeSqlStringLiteral "x\\' OR TRUE --" ++ "'") =
      some [.literal "x'", .keyword "OR", .keyword "TRUE"] ∧
    lex (viewService.buildViewSql (viewInput "x\\' OR TRUE --")) ≠
      some (viewTokens viewService (viewInput "x\\' OR TRUE --")) := by
  refine ⟨by decide +kernel, by decide +kernel, fun hlex => ?_⟩
  have hplain := ((lex_declared_iff (by decide +kernel)).mp hlex).tenantId
  revert hplain
  decide +kernel

end Harmless

end ChameleonVault.DecryptedViews
