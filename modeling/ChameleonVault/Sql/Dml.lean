import ChameleonVault.Sql.Lexer

/-! UPDATE and DELETE statements, as far as their conditions are conjunctions of equalities and single operands. -/

namespace ChameleonVault.Sql

section Statements

inductive Operand where
  | column (name : String)
  | parameter (name : String)
  | constant (token : Token)
  deriving DecidableEq

inductive Condition where
  | equal (left right : Operand)
  | single (operand : Operand)
  deriving DecidableEq

inductive Statement where
  | update (table : String) (assignments : List (String × Operand)) (conditions : List Condition)
  | delete (table : String) (conditions : List Condition)
  deriving DecidableEq

def Token.name : Token → Option String
  | .identifier name | .quoted name => some name
  | _ => none

def Token.operand : Token → Option Operand
  | .identifier name | .quoted name => some (.column name)
  | .parameter name => some (.parameter name)
  | .keyword name => if name ∈ ["TRUE", "FALSE", "NULL"] then some (.constant (.keyword name)) else none
  | .literal text => some (.constant (.literal text))
  | .number digits => some (.constant (.number digits))
  | .symbol _ => none

end Statements

section Parser

def expect (keyword : String) : List Token → Option (List Token)
  | .keyword name :: tokens => if name = keyword then some tokens else none
  | _ => none

def parsePath : List Token → Option (String × List Token)
  | token :: .symbol '.' :: tokens => do
    let name ← token.name
    let (path, rest) ← parsePath tokens
    return (name ++ "." ++ path, rest)
  | token :: tokens => token.name.map fun name => (name, tokens)
  | [] => none

def parseAssignments : List Token → Option (List (String × Operand) × List Token)
  | column :: .symbol '=' :: value :: .symbol ',' :: tokens => do
    let name ← column.name
    let operand ← value.operand
    let (assignments, rest) ← parseAssignments tokens
    return ((name, operand) :: assignments, rest)
  | column :: .symbol '=' :: value :: tokens => do
    let name ← column.name
    let operand ← value.operand
    return ([(name, operand)], tokens)
  | _ => none

def parseConjuncts : List Token → Option (List Condition)
  | left :: .symbol '=' :: right :: tokens => do
    let condition := Condition.equal (← left.operand) (← right.operand)
    match tokens with
    | [] => return [condition]
    | .keyword name :: tokens => if name = "AND" then (parseConjuncts tokens).map (condition :: ·) else none
    | _ => none
  | token :: tokens => do
    let condition := Condition.single (← token.operand)
    match tokens with
    | [] => return [condition]
    | .keyword name :: tokens => if name = "AND" then (parseConjuncts tokens).map (condition :: ·) else none
    | _ => none
  | [] => none

def parseUpdate (tokens : List Token) : Option Statement := do
  let (table, tokens) ← parsePath tokens
  let tokens ← expect "SET" tokens
  let (assignments, tokens) ← parseAssignments tokens
  let tokens ← expect "WHERE" tokens
  return .update table assignments (← parseConjuncts tokens)

def parseDelete (tokens : List Token) : Option Statement := do
  let (table, tokens) ← parsePath ((expect "FROM" tokens).getD tokens)
  let tokens ← expect "WHERE" tokens
  return .delete table (← parseConjuncts tokens)

def parseStatement : List Token → Option Statement
  | .identifier verb :: tokens =>
    if verb.toUpper = "UPDATE" then parseUpdate tokens
    else if verb.toUpper = "DELETE" then parseDelete tokens
    else none
  | _ => none

def statement (text : String) : Option Statement := (lex text).bind parseStatement

end Parser

section Parsed

variable {tokens rest : List Token} {keyword table : String} {assignments : List (String × Operand)}
  {conditions : List Condition}

lemma expect_eq_some_iff : expect keyword tokens = some rest ↔ tokens = .keyword keyword :: rest := by
  simp only [expect]
  split
  · simp
  · rename_i hne
    exact ⟨nofun, fun h => absurd h (hne keyword rest)⟩

lemma parseUpdate_eq_some_iff : parseUpdate tokens = some (.update table assignments conditions) ↔
    ∃ rest rest', parsePath tokens = some (table, .keyword "SET" :: rest) ∧
      parseAssignments rest = some (assignments, .keyword "WHERE" :: rest') ∧
      parseConjuncts rest' = some conditions := by
  simp [parseUpdate, Option.bind_eq_some_iff, expect_eq_some_iff]

lemma parseDelete_eq_some_iff : parseDelete (.keyword "FROM" :: tokens) = some (.delete table conditions) ↔
    ∃ rest, parsePath tokens = some (table, .keyword "WHERE" :: rest) ∧ parseConjuncts rest = some conditions := by
  have hfrom : expect "FROM" (.keyword "FROM" :: tokens) = some tokens := expect_eq_some_iff.mpr rfl
  simp [parseDelete, hfrom, Option.bind_eq_some_iff, expect_eq_some_iff]

end Parsed

section Names

variable {name column : String}

@[simp] lemma operand_parameter : (Token.parameter name).operand = some (.parameter name) := rfl

@[simp] lemma operand_null : (Token.keyword "NULL").operand = some (.constant (.keyword "NULL")) := rfl

lemma name_nameToken_iff : (nameToken name).name = some column ↔ isReserved name = false ∧ column = name := by
  rw [nameToken]
  split <;> simp [Token.name, *, eq_comm]

lemma operand_nameToken_iff :
    (nameToken name).operand = some (.column column) ↔ isReserved name = false ∧ column = name := by
  rw [nameToken]
  split
  · rename_i hreserved
    rw [hreserved, Token.operand]
    split <;> simp
  · rename_i hreserved
    simp [hreserved, Token.operand, eq_comm]

end Names

section Paths

variable {tokens before after rest : List Token} {token : Token} {name path : String} {cs written : List Char}

lemma extent_of_name (h : token.name = some name) : token.extent = name.length := by
  cases token <;> cases h <;> rfl

lemma keyword_ne_of_name {keyword : String} (h : token.name = some name) : Token.keyword keyword ≠ token := by
  rintro rfl
  cases h

lemma parsePath_eq_some (h : parsePath tokens = some (name, rest)) : ∃ path, tokens = path ++ rest ∧
    name.length ≤ extent path ∧ ∀ keyword, Token.keyword keyword ∉ path := by
  fun_induction parsePath tokens generalizing name with
  | case1 token tokens ih =>
    obtain ⟨first, hfirst, h⟩ := Option.bind_eq_some_iff.mp h
    obtain ⟨⟨following, rest'⟩, hrest, h⟩ := Option.bind_eq_some_iff.mp h
    obtain ⟨rfl, rfl⟩ := Prod.mk.inj (Option.some.inj h)
    obtain ⟨path, rfl, hextent, hkeyword⟩ := ih hrest
    refine ⟨token :: .symbol '.' :: path, rfl, ?_, fun keyword hm => ?_⟩
    · have hdot : (Token.symbol '.').extent = ".".length := rfl
      rw [extent_cons, extent_cons, extent_of_name hfirst, hdot, String.length_append, String.length_append]
      omega
    · rcases List.mem_cons.mp hm with hm | hm
      · exact keyword_ne_of_name hfirst hm
      · exact hkeyword keyword ((List.mem_cons.mp hm).resolve_left nofun)
  | case2 token tokens hdot =>
    obtain ⟨first, hfirst, h⟩ := Option.map_eq_some_iff.mp h
    obtain ⟨rfl, rfl⟩ := Prod.mk.inj h
    refine ⟨[token], rfl, ?_, fun keyword hm => keyword_ne_of_name hfirst (List.mem_singleton.mp hm)⟩
    simp [extent_of_name hfirst]
  | case3 => cases h

lemma parsePath_length_le (h : parsePath (before ++ after) = some (name, rest))
    (ha : after = [] ∨ ∃ keyword more, after = .keyword keyword :: more) : name.length ≤ extent before := by
  obtain ⟨path, heq, hextent, hkeyword⟩ := parsePath_eq_some h
  rcases List.append_eq_append_iff.mp heq with ⟨reached, rfl, hafter⟩ | ⟨left, rfl, -⟩
  · rcases ha with rfl | ⟨keyword, more, rfl⟩
    · obtain ⟨rfl, -⟩ := List.append_eq_nil_iff.mp hafter.symm
      simpa using hextent
    · cases reached with
      | nil => simpa using hextent
      | cons token reached =>
        obtain ⟨rfl, -⟩ := List.cons.inj hafter
        exact absurd (List.mem_append_right before List.mem_cons_self) (hkeyword keyword)
  · rw [extent_append]
    omega

def Verbatim (cs : List Char) : Prop := ∀ c ∈ cs, c ≠ backtick ∧ c ≠ backslash

instance : Decidable (Verbatim cs) := List.decidableBAll _ cs

lemma parsePath_quoted {keyword : String} :
    parsePath (.quoted name :: .keyword keyword :: tokens) = some (name, .keyword keyword :: tokens) := rfl

lemma exists_special (h : ¬ Verbatim cs) :
    ∃ head c tail, cs = head ++ c :: tail ∧ Verbatim head ∧ (c = backtick ∨ c = backslash) := by
  induction cs with
  | nil => exact absurd (fun c hm => absurd hm List.not_mem_nil) h
  | cons c cs ih =>
    by_cases hc : c = backtick ∨ c = backslash
    · exact ⟨[], c, cs, rfl, fun c hm => absurd hm List.not_mem_nil, hc⟩
    · rw [not_or] at hc
      obtain ⟨head, special, tail, rfl, hhead, hspecial⟩ := ih fun hcs => h (List.forall_mem_cons.mpr ⟨hc, hcs⟩)
      exact ⟨c :: head, special, tail, rfl, List.forall_mem_cons.mpr ⟨hc, hhead⟩, hspecial⟩

lemma extent_special {c : Char} {read : List Char} {next : Mode} (hc : c = backtick ∨ c = backslash)
    (h : step (.quoted .back read) c = some (tokens, next)) : extent tokens + next.extent ≤ read.length := by
  rcases hc with rfl | rfl
  · have hclose : close .back read = some (tokens, next) := h
    obtain ⟨rfl, hextent⟩ := extent_close hclose
    exact hextent
  · obtain ⟨rfl, rfl⟩ := Prod.mk.inj (Option.some.inj h)
    simp [Mode.extent]

/-- Written between backticks, only a name without backtick and backslash is itself the path that is read. -/
lemma verbatim_of_parsePath (hcs : Inert cs)
    (hkeyword : ∃ keyword more, lexFrom .between cs = some (.keyword keyword :: more))
    (h : lexFrom (.quoted .back []) (written ++ backtick :: cs) = some tokens)
    (hpath : parsePath tokens = some (String.ofList written, rest)) : Verbatim written := by
  by_contra hverbatim
  obtain ⟨head, c, tail, rfl, hhead, hc⟩ := exists_special hverbatim
  obtain ⟨keyword, more, hkeyword⟩ := hkeyword
  rw [List.append_assoc, lexFrom_append (run_quoted hhead), Option.map_eq_some_iff] at h
  obtain ⟨tokens, h, rfl⟩ := h
  obtain ⟨first, next, remaining, hstep, hremaining, rfl⟩ := lexFrom_cons_eq_some h
  obtain ⟨before, after, rfl, hafter, hbefore⟩ := lexFrom_written hcs hremaining
  have hspecial := extent_special hc hstep
  rw [List.nil_append, ← List.append_assoc] at hpath
  have hlength := parsePath_length_le hpath (hafter.imp_right fun hafter =>
    ⟨keyword, more, Option.some.inj (hafter.symm.trans hkeyword)⟩)
  simp only [String.length_ofList, List.length_append, List.length_cons, extent_append, List.length_reverse,
    List.append_nil] at hlength hspecial
  omega

lemma lexFrom_verbatim (hwritten : Verbatim written) (hne : written ≠ []) :
    lexFrom (.quoted .back []) (written ++ backtick :: cs) =
      (lexFrom .between cs).map (.quoted (String.ofList written) :: ·) := by
  have hclose : run (.quoted .back (written.reverse ++ [])) [backtick] =
      some ([.quoted (String.ofList written)], .between) := by
    simp [run, step, readQuoted, Quote.char, close, hne]
  rw [lexFrom_append (run_quoted hwritten), ← List.singleton_append, lexFrom_append hclose]
  simp [Function.comp_def]

end Paths

end ChameleonVault.Sql
