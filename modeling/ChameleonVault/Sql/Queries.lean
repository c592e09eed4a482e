import ChameleonVault.Sql.Lexer
import Mathlib.Data.List.MinMax
import Mathlib.Data.List.Dedup
import Mathlib.Order.WithBot
import Mathlib.Data.Int.ConditionallyCompleteOrder
import Mathlib.Order.ConditionallyCompleteLattice.Group

/-! Queries that join a table to the latest values of the groups of another: their tokens and their answers. -/

namespace ChameleonVault.Sql

section Syntax

inductive Scalar where
  | null
  | text (value : String)
  | column (name : String)
  | castText (name : String)

inductive Expression where
  | scalar (scalar : Scalar)
  | call (function : String) (arguments : List Scalar)
  | ifEqual (left right : Scalar) (yes no : Expression)

/-- The first value that is not null, the latest first. -/
structure Latest where
  value : Expression
  time : String
  name : String

structure Grouped where
  key : String
  columns : List Latest
  table : String
  filter : String × String

/-- A table with the columns of its group in place of its own of the same names. -/
structure Enriched where
  common : String
  grouped : Grouped
  table : String
  on : String
  filter : Option (String × String)

def Scalar.tokens : Scalar → List Token
  | null => [.keyword "NULL"]
  | text value => [.literal value]
  | column name => [.identifier name]
  | castText name =>
    [.keyword "CAST", .symbol '(', .identifier name, .keyword "AS", .identifier "STRING", .symbol ')']

def separated (lists : List (List Token)) : List Token := [Token.symbol ','].intercalate lists

def Expression.tokens : Expression → List Token
  | scalar s => s.tokens
  | call function arguments =>
    .quoted function :: .symbol '(' :: separated (arguments.map Scalar.tokens) ++ [.symbol ')']
  | ifEqual left right yes no =>
    .keyword "IF" :: .symbol '(' :: left.tokens ++ .symbol '=' :: right.tokens ++ .symbol ',' :: yes.tokens ++
      .symbol ',' :: no.tokens ++ [.symbol ')']

def Latest.tokens (latest : Latest) : List Token :=
  .identifier "ARRAY_AGG" :: .symbol '(' :: latest.value.tokens ++
    [.keyword "IGNORE", .keyword "NULLS", .keyword "ORDER", .keyword "BY", .identifier latest.time, .keyword "DESC",
      .keyword "LIMIT", .number "1", .symbol ')', .symbol '[', .identifier "SAFE_OFFSET", .symbol '(', .number "0",
      .symbol ')', .symbol ']', .keyword "AS", .identifier latest.name]

def Grouped.tokens (q : Grouped) : List Token :=
  .keyword "SELECT" :: separated ([.identifier q.key] :: q.columns.map Latest.tokens) ++
    [.keyword "FROM", .quoted q.table, .keyword "WHERE", .identifier q.filter.1, .symbol '=', .literal q.filter.2,
      .keyword "GROUP", .keyword "BY", .identifier q.key]

def qualified (table column : String) : List Token := [.identifier table, .symbol '.', nameToken column]

def Enriched.tokens (q : Enriched) : List Token :=
  [.keyword "WITH", .identifier q.common, .keyword "AS", .symbol '('] ++ q.grouped.tokens ++
    [.symbol ')', .keyword "SELECT", .identifier "s", .symbol '.', .symbol '*', .keyword "EXCEPT", .symbol '('] ++
    separated (q.grouped.columns.map fun column => [.identifier column.name]) ++ [.symbol ')', .symbol ','] ++
    separated (q.grouped.columns.map fun column => qualified "d" column.name) ++
    [.keyword "FROM", .quoted q.table, .identifier "s", .keyword "LEFT", .keyword "JOIN", .identifier q.common,
      .identifier "d", .keyword "ON"] ++ qualified "s" q.on ++ .symbol '=' :: qualified "d" q.grouped.key ++
    match q.filter with
    | some filter => .keyword "WHERE" :: qualified "s" filter.1 ++ [.symbol '=', .literal filter.2]
    | none => []

end Syntax

section Meaning

inductive Value where
  | null
  | text (value : String)
  | time (moment : ℤ)
  deriving DecidableEq

/-- Where a value stands in the order of time, null before all others. -/
def Value.moment : Value → WithBot ℤ
  | .time moment => moment
  | _ => ⊥

structure Functions where
  call : String → List Value → Value
  castText : Value → Value

structure Table (ρ : Type) where
  rows : List ρ
  read : ρ → String → Value

/-- What a group is shown as: for each column the row that its value is from. -/
structure Group (ρ : Type) where
  key : Value
  shown : Latest → Option ρ

def leftJoin {σ δ : Type} (on : σ → δ → Bool) (left : List σ) (right : List δ) : List (σ × Option δ) :=
  left.flatMap fun s => match right.filter (on s) with
    | [] => [(s, none)]
    | found => found.map fun d => (s, some d)

variable {ρ σ : Type} (functions : Functions) (table : Table ρ) (source : Table σ)

def Scalar.eval (row : String → Value) : Scalar → Value
  | null => .null
  | text value => .text value
  | column name => row name
  | castText name => functions.castText (row name)

def Expression.eval (row : String → Value) : Expression → Value
  | scalar s => s.eval functions row
  | call function arguments => functions.call function (arguments.map (Scalar.eval functions row))
  | ifEqual left right yes no =>
    let first := left.eval functions row
    if first ≠ .null ∧ first = right.eval functions row then yes.eval row else no.eval row

def Latest.valueOf (latest : Latest) (r : ρ) : Value := latest.value.eval functions (table.read r)

def Latest.momentOf (latest : Latest) (r : ρ) : WithBot ℤ := (table.read r latest.time).moment

/-- Rows of the same time come in any order. -/
def Latest.Shows (latest : Latest) (rows : List ρ) : Option ρ → Prop
  | none => ∀ r ∈ rows, latest.valueOf functions table r = .null
  | some r => (r ∈ rows ∧ latest.valueOf functions table r ≠ .null) ∧ ∀ r' ∈ rows,
      latest.valueOf functions table r' ≠ .null → latest.momentOf table r' ≤ latest.momentOf table r

def Grouped.rows (q : Grouped) (key : Value) : List ρ :=
  table.rows.filter fun r => table.read r q.filter.1 = .text q.filter.2 ∧ table.read r q.key = key

structure Grouped.Answers (q : Grouped) (groups : List (Group ρ)) : Prop where
  nodup : (groups.map Group.key).Nodup
  keys (key : Value) : key ∈ groups.map Group.key ↔ q.rows table key ≠ []
  shown : ∀ group ∈ groups, ∀ column ∈ q.columns,
    column.Shows functions table (q.rows table group.key) (group.shown column)

def Enriched.matches (q : Enriched) (s : σ) (group : Group ρ) : Bool :=
  group.key ≠ .null ∧ source.read s q.on = group.key

def Enriched.keeps (q : Enriched) (s : σ) : Bool :=
  q.filter.all fun filter => source.read s filter.1 = .text filter.2

def Enriched.Answers (q : Enriched) (answer : List (σ × Option (Group ρ))) : Prop :=
  ∃ groups, q.grouped.Answers functions table groups ∧
    answer = (leftJoin (q.matches source) source.rows groups).filter fun row => q.keeps source row.1

def shownRow (column : Latest) (row : σ × Option (Group ρ)) : Option ρ := row.2.bind fun group => group.shown column

def cell (column : Latest) (row : σ × Option (Group ρ)) : Value :=
  (shownRow column row).elim .null (column.valueOf functions table)

end Meaning

section Joins

variable {σ δ : Type} {on : σ → δ → Bool} {left : List σ} {right : List δ} {s : σ} {d : δ}

lemma mem_leftJoin_some : (s, some d) ∈ leftJoin on left right ↔ s ∈ left ∧ d ∈ right ∧ on s d = true := by
  simp only [leftJoin, List.mem_flatMap]
  constructor
  · rintro ⟨s', hs, hm⟩
    split at hm
    · simp at hm
    · obtain ⟨d', hd, he⟩ := List.mem_map.mp hm
      cases he
      exact ⟨hs, List.mem_filter.mp hd⟩
  · rintro ⟨hs, hd⟩
    refine ⟨s, hs, ?_⟩
    have hfound : d ∈ right.filter (on s) := List.mem_filter.mpr hd
    split
    · rename_i hnil
      simp [hnil] at hfound
    · exact List.mem_map.mpr ⟨d, hfound, rfl⟩

lemma mem_leftJoin_none : (s, none) ∈ leftJoin on left right ↔ s ∈ left ∧ ∀ d ∈ right, on s d = false := by
  simp only [leftJoin, List.mem_flatMap]
  constructor
  · rintro ⟨s', hs, hm⟩
    split at hm
    · rename_i hnil
      obtain ⟨rfl, -⟩ := Prod.mk.inj (List.mem_singleton.mp hm)
      exact ⟨hs, fun d hd => Bool.eq_false_iff.mpr (List.filter_eq_nil_iff.mp hnil d hd)⟩
    · obtain ⟨d', -, he⟩ := List.mem_map.mp hm
      cases (Prod.mk.inj he).2
  · rintro ⟨hs, hnone⟩
    refine ⟨s, hs, ?_⟩
    rw [List.filter_eq_nil_iff.mpr fun d hd => Bool.eq_false_iff.mp (hnone d hd)]
    exact List.mem_singleton_self _

end Joins

section Latest

variable {ρ : Type} {functions : Functions} {table : Table ρ} {latest : Latest} {rows : List ρ} {shown : Option ρ}

lemma exists_latest (table : Table ρ) (latest : Latest) {P : ρ → Prop} (h : ∃ r ∈ rows, P r) :
    ∃ r ∈ rows, P r ∧ ∀ r' ∈ rows, P r' → latest.momentOf table r' ≤ latest.momentOf table r := by
  classical
  obtain ⟨r, hr, hP⟩ := h
  have hne : rows.filter (P ·) ≠ [] := List.ne_nil_of_mem (List.mem_filter.mpr ⟨hr, decide_eq_true hP⟩)
  obtain ⟨m, hm⟩ := Option.ne_none_iff_exists'.mp (mt (List.argmax_eq_none (f := latest.momentOf table)).mp hne)
  obtain ⟨hmem, hPm⟩ := List.mem_filter.mp (List.argmax_mem hm)
  exact ⟨m, hmem, of_decide_eq_true hPm, fun r' hr' hP' =>
    List.le_of_mem_argmax (List.mem_filter.mpr ⟨hr', decide_eq_true hP'⟩) hm⟩

variable (functions table) in
lemma Latest.exists_shows (latest : Latest) (rows : List ρ) : ∃ shown, latest.Shows functions table rows shown := by
  by_cases hlive : ∃ r ∈ rows, latest.valueOf functions table r ≠ .null
  · obtain ⟨r, hr, hvalue, hlatest⟩ := exists_latest table latest hlive
    exact ⟨some r, ⟨hr, hvalue⟩, hlatest⟩
  · exact ⟨none, fun r hr => not_not.mp fun hvalue => hlive ⟨r, hr, hvalue⟩⟩

/-- Only rows of a kind are shown, however ties are broken, when every other row with a value is older than one. -/
lemma Latest.shows_only_iff {P : ρ → Prop} : (∀ r, latest.Shows functions table rows (some r) → P r) ↔
    ∀ r ∈ rows, latest.valueOf functions table r ≠ .null → ¬P r → ∃ r' ∈ rows,
      latest.valueOf functions table r' ≠ .null ∧ P r' ∧ latest.momentOf table r < latest.momentOf table r' := by
  constructor
  · intro honly r hr hvalue hP
    by_contra hnone
    obtain ⟨m, hm, ⟨hmvalue, hmP⟩, hlatest⟩ := exists_latest table latest
      (P := fun r => latest.valueOf functions table r ≠ .null ∧ ¬P r) ⟨r, hr, hvalue, hP⟩
    refine hmP (honly m ⟨⟨hm, hmvalue⟩, fun r' hr' hvalue' => ?_⟩)
    by_cases hP' : P r'
    · have hle : latest.momentOf table r' ≤ latest.momentOf table r :=
        not_lt.mp fun hlt => hnone ⟨r', hr', hvalue', hP', hlt⟩
      exact hle.trans (hlatest r hr ⟨hvalue, hP⟩)
    · exact hlatest r' hr' ⟨hvalue', hP'⟩
  · rintro hbeaten r ⟨⟨hr, hvalue⟩, hlatest⟩
    by_contra hP
    obtain ⟨r', hr', hvalue', -, hlt⟩ := hbeaten r hr hvalue hP
    exact absurd (hlatest r' hr' hvalue') (not_le.mpr hlt)

end Latest

section Groups

variable {ρ σ : Type} {functions : Functions} {table : Table ρ} {source : Table σ} {q : Grouped} {e : Enriched}
  {key : Value} {column : Latest} {r : ρ} {s : σ} {row : σ × Option (Group ρ)} {answer : List (σ × Option (Group ρ))}

lemma Grouped.mem_rows : r ∈ q.rows table key ↔
    r ∈ table.rows ∧ table.read r q.filter.1 = .text q.filter.2 ∧ table.read r q.key = key := by
  simp [Grouped.rows]

def Grouped.keysOf (q : Grouped) (table : Table ρ) : List Value :=
  ((table.rows.filter fun r => table.read r q.filter.1 = .text q.filter.2).map fun r => table.read r q.key).dedup

lemma Grouped.mem_keysOf : key ∈ q.keysOf table ↔ q.rows table key ≠ [] := by
  simp [Grouped.keysOf, Grouped.rows, and_assoc]

lemma Grouped.answers_of_shows (shown : Value → Latest → Option ρ)
    (h : ∀ key, ∀ column ∈ q.columns, column.Shows functions table (q.rows table key) (shown key column)) :
    q.Answers functions table ((q.keysOf table).map fun key => ⟨key, shown key⟩) := by
  have hkeys : ((q.keysOf table).map fun key => (⟨key, shown key⟩ : Group ρ)).map Group.key = q.keysOf table := by
    rw [List.map_map]
    exact List.map_id _
  refine ⟨?_, fun key => ?_, fun group hg column hc => ?_⟩
  · rw [hkeys]
    exact List.nodup_dedup _
  · rw [hkeys]
    exact Grouped.mem_keysOf
  · obtain ⟨key, -, rfl⟩ := List.mem_map.mp hg
    exact h key column hc

/-- Every row that a column may show for a key is shown by some answer. -/
lemma Grouped.exists_answers (hshow : column.Shows functions table (q.rows table key) (some r)) :
    ∃ groups, q.Answers functions table groups ∧ ∃ group ∈ groups, group.key = key ∧ group.shown column = some r := by
  classical
  choose any hany using fun (key : Value) (column : Latest) =>
    Latest.exists_shows functions table column (q.rows table key)
  refine ⟨_, answers_of_shows (fun k c => if k = key ∧ c = column then some r else any k c) fun k c _ => ?_, _,
    List.mem_map.mpr ⟨key, Grouped.mem_keysOf.mpr (List.ne_nil_of_mem hshow.1.1), rfl⟩, rfl, ?_⟩
  · split
    · rename_i heq
      obtain ⟨rfl, rfl⟩ := heq
      exact hshow
    · exact hany k c
  · exact if_pos ⟨rfl, rfl⟩

/-- What is shown beside a row of the source is what a column may show for the key of the row. -/
lemma Enriched.shows_of_answers (h : e.Answers functions table source answer) (hrow : row ∈ answer)
    (hc : column ∈ e.grouped.columns) : (row.1 ∈ source.rows ∧ e.keeps source row.1 = true) ∧
      (source.read row.1 e.on = .null ∧ shownRow column row = none ∨
        column.Shows functions table (e.grouped.rows table (source.read row.1 e.on)) (shownRow column row)) := by
  obtain ⟨groups, hgroups, rfl⟩ := h
  obtain ⟨hjoined, hkept⟩ := List.mem_filter.mp hrow
  obtain ⟨s, d⟩ := row
  cases d with
  | none =>
    obtain ⟨hs, hnone⟩ := mem_leftJoin_none.mp hjoined
    refine ⟨⟨hs, hkept⟩, ?_⟩
    by_cases hnull : source.read s e.on = .null
    · exact .inl ⟨hnull, rfl⟩
    · have hnil : e.grouped.rows table (source.read s e.on) = [] := by
        by_contra hne
        obtain ⟨group, hg, hkey⟩ := List.mem_map.mp ((hgroups.keys _).mpr hne)
        have hfalse : e.matches source s group = false := hnone group hg
        simp [Enriched.matches, hkey, hnull] at hfalse
      refine .inr fun r hr => ?_
      simp [hnil] at hr
  | some group =>
    obtain ⟨hs, hg, hmatch⟩ := mem_leftJoin_some.mp hjoined
    have hkey : source.read s e.on = group.key := (of_decide_eq_true hmatch).2
    exact ⟨⟨hs, hkept⟩, .inr (hkey ▸ hgroups.shown group hg column hc)⟩

lemma Enriched.exists_answers (hs : s ∈ source.rows) (hkeeps : e.keeps source s = true)
    (hnull : source.read s e.on ≠ .null)
    (hshow : column.Shows functions table (e.grouped.rows table (source.read s e.on)) (some r)) :
    ∃ answer, e.Answers functions table source answer ∧ ∃ row ∈ answer, row.1 = s ∧ shownRow column row = some r := by
  obtain ⟨groups, hgroups, group, hg, hkey, hr⟩ := Grouped.exists_answers hshow
  have hmatch : e.matches source s group = true := decide_eq_true ⟨hkey ▸ hnull, hkey.symm⟩
  exact ⟨_, ⟨groups, hgroups, rfl⟩, (s, some group),
    List.mem_filter.mpr ⟨mem_leftJoin_some.mpr ⟨hs, hg, hmatch⟩, hkeeps⟩, rfl, hr⟩

end Groups

end ChameleonVault.Sql
