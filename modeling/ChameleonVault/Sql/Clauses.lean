import ChameleonVault.Sql.Dml

/-! Conjunctions of equalities with parameters and lists of assignments of null: their tokens and their texts. -/

namespace ChameleonVault.Sql

section Equalities

variable {tokens rest : List Token} {column parameter : String} {columns : List String}
  {conjuncts : List (String × String)} {conditions : List Condition} {condition : Condition}
  {assignments : List (String × Operand)}

def conjunct (column parameter : String) : List Token := [nameToken column, .symbol '=', .parameter parameter]

def conjunction (conjuncts : List (String × String)) : List Token :=
  [Token.keyword "AND"].intercalate (conjuncts.map fun c => conjunct c.1 c.2)

def equality (conjunct : String × String) : Condition := .equal (.column conjunct.1) (.parameter conjunct.2)

lemma parseConjuncts_single : parseConjuncts (conjunct column parameter) =
    (nameToken column).operand.map fun operand => [.equal operand (.parameter parameter)] := by
  cases h : (nameToken column).operand <;> simp [conjunct, parseConjuncts, h]

lemma parseConjuncts_and : parseConjuncts (conjunct column parameter ++ .keyword "AND" :: tokens) =
    (nameToken column).operand.bind fun operand =>
      (parseConjuncts tokens).map (.equal operand (.parameter parameter) :: ·) := by
  cases h : (nameToken column).operand <;> simp [conjunct, parseConjuncts, h]

lemma conjunction_cons_cons {c : String × String} : conjunction ((column, parameter) :: c :: conjuncts) =
    conjunct column parameter ++ .keyword "AND" :: conjunction (c :: conjuncts) := by
  simp [conjunction]

lemma parseConjuncts_unreserved (hne : conjuncts ≠ []) (h : ∀ c ∈ conjuncts, isReserved c.1 = false) :
    parseConjuncts (conjunction conjuncts) = some (conjuncts.map equality) := by
  induction conjuncts with
  | nil => contradiction
  | cons c conjuncts ih =>
    obtain ⟨column, parameter⟩ := c
    obtain ⟨hc, hconjuncts⟩ := List.forall_mem_cons.mp h
    have hoperand := operand_nameToken_iff.mpr ⟨hc, rfl⟩
    cases conjuncts with
    | nil => simp [conjunction, parseConjuncts_single, hoperand, equality]
    | cons d conjuncts =>
      rw [conjunction_cons_cons, parseConjuncts_and, hoperand, ih nofun hconjuncts]
      rfl

lemma mem_parseConjuncts (h : parseConjuncts (conjunction conjuncts) = some conditions) (hm : condition ∈ conditions) :
    ∃ c ∈ conjuncts, ∃ operand, (nameToken c.1).operand = some operand ∧
      condition = .equal operand (.parameter c.2) := by
  induction conjuncts generalizing conditions with
  | nil => cases h
  | cons c conjuncts ih =>
    obtain ⟨column, parameter⟩ := c
    cases conjuncts with
    | nil =>
      have hsingle : parseConjuncts (conjunct column parameter) = some conditions := h
      rw [parseConjuncts_single, Option.map_eq_some_iff] at hsingle
      obtain ⟨operand, hoperand, rfl⟩ := hsingle
      exact ⟨_, List.mem_cons_self, operand, hoperand, List.mem_singleton.mp hm⟩
    | cons d conjuncts =>
      rw [conjunction_cons_cons, parseConjuncts_and] at h
      obtain ⟨operand, hoperand, h⟩ := Option.bind_eq_some_iff.mp h
      obtain ⟨following, hfollowing, rfl⟩ := Option.map_eq_some_iff.mp h
      rcases List.mem_cons.mp hm with rfl | hm
      · exact ⟨_, List.mem_cons_self, operand, hoperand, rfl⟩
      · obtain ⟨c, hc, hrest⟩ := ih hfollowing hm
        exact ⟨c, List.mem_cons_of_mem _ hc, hrest⟩

lemma unreserved_of_mem {c : String × String} (h : parseConjuncts (conjunction conjuncts) = some conditions)
    (hm : equality c ∈ conditions) : isReserved c.1 = false := by
  obtain ⟨d, -, operand, hoperand, heq⟩ := mem_parseConjuncts h hm
  obtain ⟨rfl, -⟩ := Condition.equal.inj heq
  obtain ⟨hreserved, hcolumn⟩ := operand_nameToken_iff.mp hoperand
  rwa [hcolumn]

def assignment (column : String) : List Token := [nameToken column, .symbol '=', .keyword "NULL"]

def assignmentList (columns : List String) : List Token :=
  [Token.symbol ','].intercalate (columns.map assignment)

lemma assignmentList_cons_cons {following : String} : assignmentList (column :: following :: columns) =
    assignment column ++ .symbol ',' :: assignmentList (following :: columns) := by
  simp [assignmentList]

lemma parseAssignments_single {keyword : String} : parseAssignments (assignment column ++ .keyword keyword :: rest) =
    (nameToken column).name.map fun name => ([(name, .constant (.keyword "NULL"))], .keyword keyword :: rest) := by
  cases h : (nameToken column).name <;> simp [assignment, parseAssignments, h]

lemma parseAssignments_comma : parseAssignments (assignment column ++ .symbol ',' :: tokens) =
    (nameToken column).name.bind fun name => (parseAssignments tokens).map fun parsed =>
      ((name, .constant (.keyword "NULL")) :: parsed.1, parsed.2) := by
  cases h : (nameToken column).name with
  | none => simp [assignment, parseAssignments, h]
  | some name => cases hp : parseAssignments tokens <;> simp [assignment, parseAssignments, h, hp]

lemma parseAssignments_iff {keyword : String} {rest' : List Token} (hne : columns ≠ []) :
    parseAssignments (assignmentList columns ++ .keyword keyword :: rest) = some (assignments, rest') ↔
      (∀ column ∈ columns, isReserved column = false) ∧ rest' = .keyword keyword :: rest ∧
        assignments = columns.map fun column => (column, .constant (.keyword "NULL")) := by
  induction columns generalizing assignments with
  | nil => contradiction
  | cons column columns ih =>
    cases columns with
    | nil =>
      have hsingle : assignmentList [column] = assignment column := by simp [assignmentList]
      simp only [hsingle, parseAssignments_single, Option.map_eq_some_iff, name_nameToken_iff, Prod.mk.injEq]
      constructor
      · rintro ⟨name, ⟨hreserved, rfl⟩, rfl, rfl⟩
        exact ⟨by simpa using hreserved, rfl, rfl⟩
      · rintro ⟨hreserved, rfl, rfl⟩
        exact ⟨column, ⟨hreserved column List.mem_cons_self, rfl⟩, rfl, rfl⟩
    | cons following columns =>
      rw [assignmentList_cons_cons, List.append_assoc, List.cons_append, parseAssignments_comma]
      simp only [Option.bind_eq_some_iff, Option.map_eq_some_iff, name_nameToken_iff, Prod.mk.injEq]
      constructor
      · rintro ⟨name, ⟨hreserved, rfl⟩, ⟨parsed, rest⟩, hparsed, rfl, rfl⟩
        obtain ⟨hunreserved, rfl, rfl⟩ := (ih nofun).mp hparsed
        exact ⟨List.forall_mem_cons.mpr ⟨hreserved, hunreserved⟩, rfl, rfl⟩
      · rintro ⟨hreserved, rfl, rfl⟩
        obtain ⟨hcolumn, hcolumns⟩ := List.forall_mem_cons.mp hreserved
        exact ⟨column, ⟨hcolumn, rfl⟩, _, (ih nofun).mpr ⟨hcolumns, rfl, rfl⟩, rfl, rfl⟩

end Equalities

section Texts

variable {cs : List Char} {tokens : List Token} {column parameter : String} {columns : List String}
  {conjuncts : List (String × String)}

def assignmentText (column : String) : String := column ++ " = NULL"

def assignmentsText (columns : List String) : String := ", ".intercalate (columns.map assignmentText)

def conjunctText (conjunct : String × String) : String := conjunct.1 ++ " = @" ++ conjunct.2

def conjunctionText (conjuncts : List (String × String)) : String := " AND ".intercalate (conjuncts.map conjunctText)

lemma run_assignmentText {separator : List Char} {closing : List Token} (h : isName column.toList = true)
    (hs : run .between ("= NULL".toList ++ separator) = some ([.symbol '=', .keyword "NULL"] ++ closing, .between)) :
    run .between ((assignmentText column).toList ++ separator) = some (assignment column ++ closing, .between) := by
  have hrun := run_name h hs
  have htext : (assignmentText column).toList ++ separator =
      column.toList ++ ' ' :: ("= NULL".toList ++ separator) := by
    simp [assignmentText]
  rw [htext, hrun, String.ofList_toList]
  rfl

lemma lexFrom_assignmentsText (hne : columns ≠ []) (h : ∀ column ∈ columns, isName column.toList = true) :
    lexFrom .between ((assignmentsText columns).toList ++ ' ' :: cs) =
      (lexFrom .between cs).map (assignmentList columns ++ ·) := by
  induction columns with
  | nil => contradiction
  | cons column columns ih =>
    obtain ⟨hcolumn, hcolumns⟩ := List.forall_mem_cons.mp h
    cases columns with
    | nil =>
      have hrun : run .between ((assignmentText column).toList ++ [' ']) = some (assignment column ++ [], .between) :=
        run_assignmentText hcolumn (by decide +kernel)
      have htext : (assignmentsText [column]).toList ++ ' ' :: cs = (assignmentText column).toList ++ [' '] ++ cs := by
        simp [assignmentsText]
      rw [htext, lexFrom_append hrun]
      simp [assignmentList]
    | cons following columns =>
      have hrun : run .between ((assignmentText column).toList ++ ", ".toList) =
          some (assignment column ++ [.symbol ','], .between) := run_assignmentText hcolumn (by decide +kernel)
      have htext : (assignmentsText (column :: following :: columns)).toList ++ ' ' :: cs =
          (assignmentText column).toList ++ ", ".toList ++
            ((assignmentsText (following :: columns)).toList ++ ' ' :: cs) := by
        simp [assignmentsText]
      rw [htext, lexFrom_append hrun, ih nofun hcolumns, assignmentList_cons_cons]
      simp [Function.comp_def]

lemma run_conjunctText {c : String × String} (hc : isName c.1.toList = true) (hp : isName c.2.toList = true) :
    run .between (conjunctText c).toList =
      some ([nameToken c.1, .symbol '='], .parameter c.2.toList.reverse) := by
  have hrun : run .between "= @".toList = some ([.symbol '='], .parameter []) := by decide +kernel
  have hpiece := run_name hc (run_trans hrun (run_parameter hp))
  have htext : (conjunctText c).toList = c.1.toList ++ ' ' :: ("= @".toList ++ c.2.toList) := by
    simp [conjunctText]
  rw [htext, hpiece, String.ofList_toList]
  rfl

lemma finish_parameter (hp : isName parameter.toList = true) :
    (Mode.parameter parameter.toList.reverse).finish = some [.parameter parameter] := by
  have hne : parameter.toList.reverse ≠ [] := by
    intro hnil
    rw [List.reverse_eq_nil_iff.mp hnil] at hp
    cases hp
  rw [Mode.finish, if_neg hne, List.reverse_reverse, String.ofList_toList]

lemma lexFrom_conjunctionText (hne : conjuncts ≠ [])
    (h : ∀ c ∈ conjuncts, isName c.1.toList = true ∧ isName c.2.toList = true) :
    lexFrom .between (conjunctionText conjuncts).toList = some (conjunction conjuncts) := by
  induction conjuncts with
  | nil => contradiction
  | cons c conjuncts ih =>
    obtain ⟨⟨hcolumn, hparameter⟩, hconjuncts⟩ := List.forall_mem_cons.mp h
    have hrun := run_conjunctText hcolumn hparameter
    have hfinish := finish_parameter hparameter
    cases conjuncts with
    | nil =>
      have htext : (conjunctionText [c]).toList = (conjunctText c).toList := by simp [conjunctionText]
      rw [htext, lexFrom_of_run hrun, hfinish]
      simp [conjunction, conjunct]
    | cons d conjuncts =>
      have htext : (conjunctionText (c :: d :: conjuncts)).toList =
          (conjunctText c).toList ++ ' ' :: "AND ".toList ++ (conjunctionText (d :: conjuncts)).toList := by
        simp [conjunctionText]
      have hstep : step (.parameter c.2.toList.reverse) ' ' = some ([.parameter c.2], .between) := by
        have hrestart : step (.parameter c.2.toList.reverse) ' ' = restart (.parameter c.2.toList.reverse) ' ' := rfl
        rw [hrestart, restart, hfinish]
        rfl
      have hand : run .between "AND ".toList = some ([.keyword "AND"], .between) := by decide +kernel
      rw [htext, lexFrom_append (run_trans hrun (run_cons hstep hand)), ih (List.cons_ne_nil _ _) hconjuncts, conjunction_cons_cons]
      rfl

end Texts

section Inert

variable {columns : List String} {conjuncts : List (String × String)}

lemma inert_assignmentsText (h : ∀ column ∈ columns, isName column.toList = true) :
    Inert (assignmentsText columns).toList := by
  rw [assignmentsText, String.toList_intercalate]
  refine Inert.intercalate (by decide) fun text hm => ?_
  obtain ⟨assigned, ha, rfl⟩ := List.mem_map.mp hm
  obtain ⟨column, hcolumn, rfl⟩ := List.mem_map.mp ha
  rw [assignmentText, String.toList_append]
  exact (inert_of_isName (h column hcolumn)).append (by decide)

lemma inert_conjunctionText (h : ∀ c ∈ conjuncts, isName c.1.toList = true ∧ isName c.2.toList = true) :
    Inert (conjunctionText conjuncts).toList := by
  rw [conjunctionText, String.toList_intercalate]
  refine Inert.intercalate (by decide) fun text hm => ?_
  obtain ⟨equated, he, rfl⟩ := List.mem_map.mp hm
  obtain ⟨c, hc, rfl⟩ := List.mem_map.mp he
  obtain ⟨hcolumn, hparameter⟩ := h c hc
  rw [conjunctText, String.toList_append, String.toList_append]
  exact ((inert_of_isName hcolumn).append (by decide)).append (inert_of_isName hparameter)

end Inert

section Statements

variable {table : String} {columns : List String} {conjuncts : List (String × String)}
  {assignments : List (String × Operand)} {conditions : List Condition}

def updateText (table : String) (columns : List String) (conjuncts : List (String × String)) : String :=
  "UPDATE `" ++ table ++ "` SET " ++ assignmentsText columns ++ " WHERE " ++ conjunctionText conjuncts

def deleteText (table : String) (conjuncts : List (String × String)) : String :=
  "DELETE FROM `" ++ table ++ "` WHERE " ++ conjunctionText conjuncts

/-- The names in a statement are words, and there are some. -/
structure Worded (conjuncts : List (String × String)) : Prop where
  ne_nil : conjuncts ≠ []
  names (c : String × String) : c ∈ conjuncts → isName c.1.toList = true ∧ isName c.2.toList = true

lemma lexFrom_where (h : Worded conjuncts) : lexFrom .between (" WHERE " ++ conjunctionText conjuncts).toList =
    some (.keyword "WHERE" :: conjunction conjuncts) := by
  have hwhere : run .between " WHERE ".toList = some ([.keyword "WHERE"], .between) := by decide +kernel
  rw [String.toList_append, lexFrom_append hwhere, lexFrom_conjunctionText h.ne_nil h.names]
  rfl

lemma parseStatement_delete {tokens : List Token} :
    parseStatement (.identifier "DELETE" :: tokens) = parseDelete tokens := by
  have hupdate : "DELETE".toUpper ≠ "UPDATE" := by decide +kernel
  have hdelete : "DELETE".toUpper = "DELETE" := by decide +kernel
  rw [parseStatement, if_neg hupdate, if_pos hdelete]

lemma parseStatement_update {tokens : List Token} :
    parseStatement (.identifier "UPDATE" :: tokens) = parseUpdate tokens := by
  have hupdate : "UPDATE".toUpper = "UPDATE" := by decide +kernel
  rw [parseStatement, if_pos hupdate]

lemma toList_quoting {opening closing following rest : String} (h : closing.toList = backtick :: following.toList) :
    (opening ++ table ++ closing ++ rest).toList =
      opening.toList ++ (table.toList ++ backtick :: (following ++ rest).toList) := by
  simp only [String.toList_append, h, List.append_assoc, List.cons_append]

lemma statement_deleteText : statement (deleteText table conjuncts) = some (.delete table conditions) ↔
    ∃ tokens rest, lexFrom (.quoted .back [])
        (table.toList ++ backtick :: (" WHERE " ++ conjunctionText conjuncts).toList) = some tokens ∧
      parsePath tokens = some (table, .keyword "WHERE" :: rest) ∧ parseConjuncts rest = some conditions := by
  have hrun : run .between "DELETE FROM `".toList =
      some ([.identifier "DELETE", .keyword "FROM"], .quoted .back []) := by decide +kernel
  have hquote : "` WHERE ".toList = backtick :: " WHERE ".toList := by decide
  have htext : (deleteText table conjuncts).toList = "DELETE FROM `".toList ++
      (table.toList ++ backtick :: (" WHERE " ++ conjunctionText conjuncts).toList) := toList_quoting hquote
  rw [statement, lex, htext, lexFrom_append hrun, Option.bind_map, Option.bind_eq_some_iff]
  refine exists_congr fun tokens => ?_
  have hparse : parseStatement ([.identifier "DELETE", .keyword "FROM"] ++ tokens) =
      parseDelete (.keyword "FROM" :: tokens) := parseStatement_delete
  rw [Function.comp_apply, hparse, parseDelete_eq_some_iff, exists_and_left]

lemma statement_updateText :
    statement (updateText table columns conjuncts) = some (.update table assignments conditions) ↔
      ∃ tokens rest rest', lexFrom (.quoted .back []) (table.toList ++ backtick ::
          (" SET " ++ assignmentsText columns ++ " WHERE " ++ conjunctionText conjuncts).toList) = some tokens ∧
        parsePath tokens = some (table, .keyword "SET" :: rest) ∧
        parseAssignments rest = some (assignments, .keyword "WHERE" :: rest') ∧
        parseConjuncts rest' = some conditions := by
  have hrun : run .between "UPDATE `".toList = some ([.identifier "UPDATE"], .quoted .back []) := by decide +kernel
  have hquote : "` SET ".toList = backtick :: " SET ".toList := by decide
  have hrest : " SET " ++ assignmentsText columns ++ " WHERE " ++ conjunctionText conjuncts =
      " SET " ++ (assignmentsText columns ++ " WHERE " ++ conjunctionText conjuncts) := by
    simp only [String.append_assoc]
  have hupdate : updateText table columns conjuncts = "UPDATE `" ++ table ++ "` SET " ++
      (assignmentsText columns ++ " WHERE " ++ conjunctionText conjuncts) := by
    change "UPDATE `" ++ table ++ "` SET " ++ assignmentsText columns ++ " WHERE " ++ conjunctionText conjuncts = _
    simp only [String.append_assoc]
  have htext : (updateText table columns conjuncts).toList = "UPDATE `".toList ++ (table.toList ++
      backtick :: (" SET " ++ assignmentsText columns ++ " WHERE " ++ conjunctionText conjuncts).toList) := by
    rw [hupdate, hrest]
    exact toList_quoting hquote
  rw [statement, lex, htext, lexFrom_append hrun, Option.bind_map, Option.bind_eq_some_iff]
  refine exists_congr fun tokens => ?_
  have hparse : parseStatement ([.identifier "UPDATE"] ++ tokens) = parseUpdate tokens := parseStatement_update
  simp only [Function.comp_apply, hparse, parseUpdate_eq_some_iff, exists_and_left]

lemma lexFrom_set (hne : columns ≠ []) (hcolumns : ∀ column ∈ columns, isName column.toList = true)
    (h : Worded conjuncts) :
    lexFrom .between (" SET " ++ assignmentsText columns ++ " WHERE " ++ conjunctionText conjuncts).toList =
      some (.keyword "SET" :: (assignmentList columns ++ .keyword "WHERE" :: conjunction conjuncts)) := by
  have hset : run .between " SET ".toList = some ([.keyword "SET"], .between) := by decide +kernel
  have hwhere : run .between "WHERE ".toList = some ([.keyword "WHERE"], .between) := by decide +kernel
  have htext : (" SET " ++ assignmentsText columns ++ " WHERE " ++ conjunctionText conjuncts).toList =
      " SET ".toList ++ ((assignmentsText columns).toList ++
        ' ' :: ("WHERE ".toList ++ (conjunctionText conjuncts).toList)) := by
    simp
  rw [htext, lexFrom_append hset, lexFrom_assignmentsText hne hcolumns, lexFrom_append hwhere,
    lexFrom_conjunctionText h.ne_nil h.names]
  rfl

lemma inert_where (h : Worded conjuncts) : Inert (" WHERE " ++ conjunctionText conjuncts).toList := by
  rw [String.toList_append]
  exact Inert.append (by decide) (inert_conjunctionText h.names)

lemma inert_set (hcolumns : ∀ column ∈ columns, isName column.toList = true) (h : Worded conjuncts) :
    Inert (" SET " ++ assignmentsText columns ++ " WHERE " ++ conjunctionText conjuncts).toList := by
  rw [String.append_assoc, String.toList_append, String.toList_append]
  exact (Inert.append (by decide) (inert_assignmentsText hcolumns)).append (inert_where h)

lemma quoted_table {cs : List Char} {tokens rest after : List Token} {keyword keyword' : String} (hne : table ≠ "")
    (hcs : Inert cs) (hafter : lexFrom .between cs = some (.keyword keyword :: after))
    (hlex : lexFrom (.quoted .back []) (table.toList ++ backtick :: cs) = some tokens)
    (hpath : parsePath tokens = some (table, .keyword keyword' :: rest)) : Verbatim table.toList ∧ rest = after := by
  have hverbatim : Verbatim table.toList := verbatim_of_parsePath hcs ⟨keyword, after, hafter⟩ hlex
    ((String.ofList_toList (s := table)).symm ▸ hpath)
  refine ⟨hverbatim, ?_⟩
  rw [lexFrom_verbatim hverbatim (by simpa using hne), hafter, Option.map_some, String.ofList_toList] at hlex
  obtain rfl := Option.some.inj hlex
  rw [parsePath_quoted] at hpath
  exact (List.cons.inj (Prod.mk.inj (Option.some.inj hpath)).2).2.symm

lemma lexFrom_table {cs : List Char} {tokens : List Token} (hne : table ≠ "") (hverbatim : Verbatim table.toList)
    (hcs : lexFrom .between cs = some tokens) :
    lexFrom (.quoted .back []) (table.toList ++ backtick :: cs) = some (.quoted table :: tokens) := by
  rw [lexFrom_verbatim hverbatim (by simpa using hne), hcs, Option.map_some, String.ofList_toList]

lemma deleteText_confined_iff (h : Worded conjuncts) (hne : table ≠ "") :
    (∃ conditions, statement (deleteText table conjuncts) = some (.delete table conditions) ∧
        ∀ c ∈ conjuncts, equality c ∈ conditions) ↔
      Verbatim table.toList ∧ ∀ c ∈ conjuncts, isReserved c.1 = false := by
  constructor
  · rintro ⟨conditions, hstatement, hconditions⟩
    obtain ⟨tokens, rest, hlex, hpath, hconjuncts⟩ := statement_deleteText.mp hstatement
    obtain ⟨hverbatim, rfl⟩ := quoted_table hne (inert_where h) (lexFrom_where h) hlex hpath
    exact ⟨hverbatim, fun c hm => unreserved_of_mem hconjuncts (hconditions c hm)⟩
  · rintro ⟨hverbatim, hunreserved⟩
    refine ⟨conjuncts.map equality, statement_deleteText.mpr ⟨_, conjunction conjuncts,
      lexFrom_table hne hverbatim (lexFrom_where h), parsePath_quoted,
      parseConjuncts_unreserved h.ne_nil hunreserved⟩, fun c hm => List.mem_map_of_mem hm⟩

lemma updateText_confined_iff (hcolumns : columns ≠ []) (hnames : ∀ column ∈ columns, isName column.toList = true)
    (h : Worded conjuncts) (hne : table ≠ "") :
    (∃ assignments conditions, statement (updateText table columns conjuncts) =
          some (.update table assignments conditions) ∧
        (∀ assigned ∈ assignments, assigned.1 ∈ columns) ∧ ∀ c ∈ conjuncts, equality c ∈ conditions) ↔
      Verbatim table.toList ∧ (∀ column ∈ columns, isReserved column = false) ∧
        ∀ c ∈ conjuncts, isReserved c.1 = false := by
  constructor
  · rintro ⟨assignments, conditions, hstatement, -, hconditions⟩
    obtain ⟨tokens, rest, rest', hlex, hpath, hassignments, hconjuncts⟩ := statement_updateText.mp hstatement
    obtain ⟨hverbatim, rfl⟩ :=
      quoted_table hne (inert_set hnames h) (lexFrom_set hcolumns hnames h) hlex hpath
    obtain ⟨hunreserved, heq, -⟩ := (parseAssignments_iff hcolumns).mp hassignments
    obtain rfl := (List.cons.inj heq).2
    exact ⟨hverbatim, hunreserved, fun c hm => unreserved_of_mem hconjuncts (hconditions c hm)⟩
  · rintro ⟨hverbatim, hunreserved, hconjuncts⟩
    refine ⟨columns.map fun column => (column, .constant (.keyword "NULL")), conjuncts.map equality,
      statement_updateText.mpr ⟨_, _, conjunction conjuncts,
        lexFrom_table hne hverbatim (lexFrom_set hcolumns hnames h), parsePath_quoted,
        (parseAssignments_iff hcolumns).mpr ⟨hunreserved, rfl, rfl⟩,
        parseConjuncts_unreserved h.ne_nil hconjuncts⟩, fun assigned hm => ?_, fun c hm => List.mem_map_of_mem hm⟩
    obtain ⟨column, hcolumn, rfl⟩ := List.mem_map.mp hm
    exact hcolumn

end Statements

end ChameleonVault.Sql
