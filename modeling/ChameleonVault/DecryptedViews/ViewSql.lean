import ChameleonVault.DecryptedViews.Declarations
import ChameleonVault.PiiRegistry.Confinement
import ChameleonVault.Sql.Pieces

/-! The statement behind a decrypted view, read as GoogleSQL reads it. -/

namespace ChameleonVault.DecryptedViews

open Sql
open Sql.Piece (fixed written name column)
open Deletion (TableRef)
open PiiRegistry (buildPiiVaultPivotColumns escapeSqlStringLiteral joinLines quoted tablePath)

section Values

def escapeChar (c : Char) : List Char := if c.toNat = 0x27 then [c, c] else [c]

lemma escapeChar_writes : Writes .single escapeChar := by
  intro c
  by_cases hc : c.toNat = 0x27
  · refine ⟨[c], by simp [escapeChar, hc], fun hne => absurd ?_ hne⟩
    rw [← Char.ofNat_toNat c, hc]
    rfl
  · exact ⟨[], by simp [escapeChar, hc], fun _ => rfl⟩

lemma singleton_writes (quote : Quote) : Writes quote fun c => [c] := fun _ => ⟨[], rfl, fun _ => rfl⟩

def literal (value : String) : Piece := written .single escapeChar escapeChar_writes value

def quotedName (value : String) : Piece := written .back (fun c => [c]) (singleton_writes _) value

lemma toList_escapeSqlStringLiteral (value : String) :
    (escapeSqlStringLiteral value).toList = value.toList.flatMap escapeChar := String.toList_ofList

lemma render_literal (value : String) : (literal value).render = ("'" ++ escapeSqlStringLiteral value ++ "'").toList := by
  simp [literal, Piece.render, String.toList_append, toList_escapeSqlStringLiteral]
  rfl

lemma render_quotedName (value : String) : (quotedName value).render = ("`" ++ value ++ "`").toList := by
  simp [quotedName, Piece.render, String.toList_append]
  rfl

lemma quoted_eq (table : TableRef) : quoted table "" = "`" ++ tablePath table ++ "`" := by
  simp [quoted, tablePath, String.append_assoc]

end Values

section Lists

/-- The items of a list, each ended by a comma but the last. -/
def listed (item : String → Separator → List Piece) (gap : Fixed) (last : Separator) : List String → List Piece
  | [] => []
  | [value] => item value last
  | value :: values => item value .comma ++ fixed gap :: listed item gap last values

variable {item : String → Separator → List Piece} {gap : Fixed} {last : Separator} {values : List String}
  {text : String → String}

lemma toList_intercalate_cons {separator first second : String} {rest : List String} :
    (separator.intercalate (first :: second :: rest)).toList =
      first.toList ++ separator.toList ++ (separator.intercalate (second :: rest)).toList := by
  rw [String.toList_intercalate, String.toList_intercalate, List.map_cons, List.map_cons, List.intercalate_cons_cons]

lemma render_listed (hitem : ∀ value separator, (item value separator).flatMap Piece.render =
      (text value).toList ++ [separator.char]) (hne : values ≠ []) :
    (listed item gap last values).flatMap Piece.render =
      (("," ++ gap.text).intercalate (values.map text)).toList ++ [last.char] := by
  induction values with
  | nil => exact absurd rfl hne
  | cons value values ih =>
    cases values with
    | nil => simp [listed, hitem]
    | cons following values =>
      have htail := ih nofun
      rw [listed, List.flatMap_append, hitem, List.flatMap_cons, htail]
      · simp only [List.map_cons, toList_intercalate_cons]
        simp [Piece.render, Separator.comma, String.toList_append]
      · nofun

lemma sound_listed {ok : String → Prop}
    (hitem : ∀ value separator, (∀ piece ∈ item value separator, piece.Sound) ↔ ok value) :
    (∀ piece ∈ listed item gap last values, piece.Sound) ↔ ∀ value ∈ values, ok value := by
  induction values with
  | nil => simp [listed]
  | cons value values ih =>
    cases values with
    | nil => simp [listed, hitem]
    | cons following values =>
      rw [listed, List.forall_mem_append, hitem, List.forall_mem_cons, ih, List.forall_mem_cons]
      · simp [Piece.Sound]
      · intro h
        cases h

end Lists

section Pivots

namespace Texts

def aggregate : Fixed := ⟨"ARRAY_AGG(IF(field_name = ", by decide +kernel⟩
def next : Fixed := ⟨", ", by decide +kernel⟩
def castValue : Fixed := ⟨"(CAST(encrypted_value AS STRING), ", by decide +kernel⟩
def callEnd : Fixed := ⟨"user_id, tenant_id), NULL) ", by decide +kernel⟩
def latest : Fixed := ⟨"IGNORE NULLS ORDER BY synced_at ", by decide +kernel⟩
def asName : Fixed := ⟨"DESC LIMIT 1)[SAFE_OFFSET(0)] AS ", by decide +kernel⟩

end Texts

def pivot (batchDecryptFunctionRef field : String) (separator : Separator) : List Piece :=
  [fixed Texts.aggregate, literal field, fixed Texts.next, quotedName batchDecryptFunctionRef, fixed Texts.castValue,
    fixed Texts.callEnd, fixed Texts.latest, fixed Texts.asName, name field separator]

def pivotText (batchDecryptFunctionRef field : String) : String :=
  "ARRAY_AGG(IF(field_name = '" ++ escapeSqlStringLiteral field ++ "', "
    ++ "`" ++ batchDecryptFunctionRef ++ "`(CAST(encrypted_value AS STRING), user_id, tenant_id), NULL) "
    ++ "IGNORE NULLS ORDER BY synced_at DESC LIMIT 1)[SAFE_OFFSET(0)] AS " ++ field

variable {batchDecryptFunctionRef field : String} {separator : Separator}

lemma render_pivot : (pivot batchDecryptFunctionRef field separator).flatMap Piece.render =
    (pivotText batchDecryptFunctionRef field).toList ++ [separator.char] := by
  have hopen : "ARRAY_AGG(IF(field_name = '" = "ARRAY_AGG(IF(field_name = " ++ "'" := by simp only [String.reduceAppend]
  have hclose : "', " = "'" ++ ", " := by simp only [String.reduceAppend]
  have hcall : "`(CAST(encrypted_value AS STRING), user_id, tenant_id), NULL) " =
      "`" ++ "(CAST(encrypted_value AS STRING), " ++ "user_id, tenant_id), NULL) " := by simp only [String.reduceAppend]
  have hlatest : "IGNORE NULLS ORDER BY synced_at DESC LIMIT 1)[SAFE_OFFSET(0)] AS " =
      "IGNORE NULLS ORDER BY synced_at " ++ "DESC LIMIT 1)[SAFE_OFFSET(0)] AS " := by simp only [String.reduceAppend]
  unfold pivotText pivot
  simp only [hopen, hclose, hcall, hlatest]
  simp only [List.flatMap_cons, List.flatMap_nil, render_literal, render_quotedName]
  simp only [Piece.render, Texts.aggregate, Texts.next, Texts.castValue, Texts.callEnd, Texts.latest, Texts.asName,
    String.toList_append, List.append_assoc, List.append_nil]

/-- A field name that the view can use as the alias of a column. -/
def Usable (field : String) : Prop := isName field.toList = true ∧ isReserved field = false

lemma plain_back_iff {text : List Char} (hne : text ≠ []) : Plain .back text ↔ Verbatim text := by
  refine (and_iff_right fun _ => hne).trans (forall₂_congr fun c _ => isPlainChar_iff.trans ?_)
  simp [Quote.char]

lemma plain_of_isName {quote : Quote} {name : List Char} (h : isName name = true) : Plain quote name := by
  obtain ⟨c, cs, rfl, -, -⟩ := isName_iff.mp h
  refine ⟨fun _ => nofun, fun d hd => ?_⟩
  have hpart := isWordPart_of_isName h d hd
  have hnone : [backtick, singleQuote, doubleQuote, backslash, '\n', '\r'].all fun e => !isWordPart e := by decide
  have hne {e : Char} (he : e ∈ [backtick, singleQuote, doubleQuote, backslash, '\n', '\r']) : d ≠ e := by
    rintro rfl
    have hnot := List.all_eq_true.mp hnone d he
    rw [hpart] at hnot
    cases hnot
  refine isPlainChar_iff.mpr ⟨?_, hne (by simp), .inr ⟨hne (by simp), hne (by simp)⟩⟩
  cases quote <;> exact hne (by simp [Quote.char])

lemma sound_pivot : (∀ piece ∈ pivot batchDecryptFunctionRef field separator, piece.Sound) ↔
    Plain .back batchDecryptFunctionRef.toList ∧ Usable field := by
  simp only [pivot, List.forall_mem_cons, List.not_mem_nil, Piece.Sound, literal, quotedName, Usable]
  constructor
  · rintro ⟨-, -, -, href, -, -, -, -, hname, -⟩
    exact ⟨href, hname⟩
  · rintro ⟨href, hname⟩
    exact ⟨trivial, plain_of_isName hname.1, trivial, href, trivial, trivial, trivial, trivial, hname,
      fun _ h => h.elim⟩

end Pivots

section DecryptedViews

variable {service : DecryptedViewService} {input : DeclareViewInput}

namespace Texts

def viewColumns : Fixed := ⟨"SELECT\n  user_id,\n  tenant_id,\n  ", by decide +kernel⟩
def fromTable : Fixed := ⟨"FROM ", by decide +kernel⟩
def whereTenant : Fixed := ⟨"\nWHERE tenant_id = ", by decide +kernel⟩
def gap : Fixed := ⟨"\n  ", by decide +kernel⟩
def grouped : String := "\nGROUP BY user_id, tenant_id"

end Texts

def viewPieces (service : DecryptedViewService) (input : DeclareViewInput) : List Piece :=
  fixed Texts.viewColumns :: listed (pivot service.batchDecryptFunctionRef) Texts.gap .newline input.declaredFields
    ++ [fixed Texts.fromTable, quotedName (tablePath service.piiVault), fixed Texts.whereTenant, literal input.tenantId]

/-- What the statement of the view is meant to be: each field, the tenant and each path one token of its own. -/
def viewTokens (service : DecryptedViewService) (input : DeclareViewInput) : List Token :=
  (viewPieces service input).flatMap Piece.tokens ++
    [.keyword "GROUP", .keyword "BY", .identifier "user_id", .symbol ',', .identifier "tenant_id"]

lemma lexFrom_grouped : lexFrom .between Texts.grouped.toList =
    some [.keyword "GROUP", .keyword "BY", .identifier "user_id", .symbol ',', .identifier "tenant_id"] := by
  decide +kernel

lemma toList_intercalate_singleton {separator text : String} :
    (separator.intercalate [text]).toList = text.toList := by
  rw [String.toList_intercalate, List.map_cons, List.map_nil, List.intercalate_singleton]

lemma buildPiiVaultPivotColumns_eq {fields : List String} {batchDecryptFunctionRef : String} :
    buildPiiVaultPivotColumns fields batchDecryptFunctionRef = fields.map (pivotText batchDecryptFunctionRef) := by
  unfold buildPiiVaultPivotColumns pivotText
  rfl

lemma toList_buildViewSql (hne : input.declaredFields ≠ []) : (service.buildViewSql input).toList =
    (viewPieces service input).flatMap Piece.render ++ Texts.grouped.toList := by
  have hcolumns : "SELECT\n  user_id,\n  tenant_id,\n  " =
      "SELECT" ++ "\n" ++ "  user_id," ++ "\n" ++ "  tenant_id," ++ "\n" ++ "  " := by simp only [String.reduceAppend]
  have hgap : "," ++ "\n  " = ",\n  " := by simp only [String.reduceAppend]
  have hwhere : "\nWHERE tenant_id = " = "\n" ++ "WHERE tenant_id = " := by simp only [String.reduceAppend]
  have hopen : "WHERE tenant_id = '" = "WHERE tenant_id = " ++ "'" := by simp only [String.reduceAppend]
  have hgrouped : "\nGROUP BY user_id, tenant_id" = "\n" ++ "GROUP BY user_id, tenant_id" := by
    simp only [String.reduceAppend]
  have hnewline : ['\n'] = "\n".toList := by rfl
  have hlist := @render_listed (pivot service.batchDecryptFunctionRef) Texts.gap .newline input.declaredFields
    (pivotText service.batchDecryptFunctionRef) (fun _ _ => render_pivot) hne
  rw [DecryptedViewService.buildViewSql, joinLines, viewPieces]
  simp only [List.flatMap_append, List.flatMap_cons, List.flatMap_nil, hlist, render_literal, render_quotedName]
  simp only [Piece.render, Texts.viewColumns, Texts.fromTable, Texts.whereTenant, Texts.grouped, Texts.gap, Separator.newline,
    toList_intercalate_cons, toList_intercalate_singleton, buildPiiVaultPivotColumns_eq, quoted_eq]
  simp only [hcolumns, hgap, hwhere, hopen, hgrouped, hnewline, String.toList_append, List.append_assoc,
    List.append_nil]

lemma sound_pivots {batchDecryptFunctionRef : String} {gap : Fixed} {last : Separator} {fields : List String}
    (hne : fields ≠ []) : (∀ piece ∈ listed (pivot batchDecryptFunctionRef) gap last fields, piece.Sound) ↔
      Plain .back batchDecryptFunctionRef.toList ∧ ∀ field ∈ fields, Usable field := by
  refine (@sound_listed (pivot batchDecryptFunctionRef) gap last fields _ fun _ _ => sound_pivot).trans ?_
  constructor
  · intro h
    obtain ⟨field, fields, rfl⟩ := List.exists_cons_of_ne_nil hne
    exact ⟨(h field List.mem_cons_self).1, fun field hf => (h field hf).2⟩
  · exact fun ⟨href, h⟩ field hf => ⟨href, h field hf⟩

/-- The statement of the view reads as it was meant exactly when what is written into it is harmless. -/
lemma lex_buildViewSql_iff (hne : input.declaredFields ≠ []) :
    lex (service.buildViewSql input) = some (viewTokens service input) ↔
      (Plain .back service.batchDecryptFunctionRef.toList ∧ Plain .back (tablePath service.piiVault).toList) ∧
      (∀ field ∈ input.declaredFields, Usable field) ∧ Plain .single input.tenantId.toList := by
  rw [lex, toList_buildViewSql hne, viewTokens, lexFrom_pieces_iff lexFrom_grouped]
  simp only [viewPieces, List.cons_append, List.forall_mem_append, List.forall_mem_cons, sound_pivots hne]
  simp only [Piece.Sound, literal, quotedName]
  constructor
  · rintro ⟨-, ⟨href, hfields⟩, -, hpath, -, htenant, -⟩
    exact ⟨⟨href, hpath⟩, hfields, htenant⟩
  · rintro ⟨⟨href, hpath⟩, hfields, htenant⟩
    exact ⟨trivial, ⟨href, hfields⟩, trivial, hpath, trivial, htenant, List.forall_mem_nil _⟩

end DecryptedViews

end ChameleonVault.DecryptedViews
