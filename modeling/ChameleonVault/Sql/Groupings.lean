import ChameleonVault.Sql.Queries

/-! Queries that show the latest values of each group of a table, where several columns make a group. -/

namespace ChameleonVault.Sql

section Syntax

structure GroupedBy where
  keys : List String
  columns : List Latest
  table : String
  filter : String × String

def GroupedBy.tokens (q : GroupedBy) : List Token :=
  .keyword "SELECT" :: separated (q.keys.map (fun key => [Token.identifier key]) ++ q.columns.map Latest.tokens) ++
    [.keyword "FROM", .quoted q.table, .keyword "WHERE", .identifier q.filter.1, .symbol '=', .literal q.filter.2,
      .keyword "GROUP", .keyword "BY"] ++ separated (q.keys.map fun key => [Token.identifier key])

end Syntax

section Meaning

structure KeyedGroup (ρ : Type) where
  key : List Value
  shown : Latest → Option ρ

variable {ρ : Type} (functions : Functions) (table : Table ρ)

def GroupedBy.keyOf (q : GroupedBy) (r : ρ) : List Value := q.keys.map (table.read r)

def GroupedBy.rows (q : GroupedBy) (key : List Value) : List ρ :=
  table.rows.filter fun r => table.read r q.filter.1 = .text q.filter.2 ∧ q.keyOf table r = key

structure GroupedBy.Answers (q : GroupedBy) (groups : List (KeyedGroup ρ)) : Prop where
  nodup : (groups.map KeyedGroup.key).Nodup
  keys (key : List Value) : key ∈ groups.map KeyedGroup.key ↔ q.rows table key ≠ []
  shown : ∀ group ∈ groups, ∀ column ∈ q.columns,
    column.Shows functions table (q.rows table group.key) (group.shown column)

/-- The row that a group's value is from: none where the group has none, or is none. -/
def shownFor (groups : List (KeyedGroup ρ)) (key : List Value) (column : Latest) : Option ρ :=
  (groups.find? fun group => group.key = key).bind fun group => group.shown column

end Meaning

section Answers

variable {ρ : Type} {functions : Functions} {table : Table ρ} {q : GroupedBy} {groups : List (KeyedGroup ρ)}
  {key : List Value} {column : Latest} {r : ρ}

lemma GroupedBy.mem_rows : r ∈ q.rows table key ↔
    r ∈ table.rows ∧ table.read r q.filter.1 = .text q.filter.2 ∧ q.keyOf table r = key := by
  simp [GroupedBy.rows]

lemma GroupedBy.Answers.shows (h : q.Answers functions table groups) (hc : column ∈ q.columns) :
    column.Shows functions table (q.rows table key) (shownFor groups key column) := by
  rw [shownFor]
  cases hfound : groups.find? fun group => group.key = key with
  | none =>
    have hnil : q.rows table key = [] := by
      by_contra hne
      obtain ⟨group, hg, hkey⟩ := List.mem_map.mp ((h.keys key).mpr hne)
      exact absurd (decide_eq_true hkey) (List.find?_eq_none.mp hfound group hg)
    rw [hnil]
    exact fun r hr => absurd hr List.not_mem_nil
  | some group =>
    have hkey : group.key = key := by simpa using List.find?_some hfound
    exact hkey ▸ h.shown group (List.mem_of_find?_eq_some hfound) column hc

def GroupedBy.keysOf (q : GroupedBy) (table : Table ρ) : List (List Value) :=
  ((table.rows.filter fun r => table.read r q.filter.1 = .text q.filter.2).map (q.keyOf table)).dedup

lemma GroupedBy.mem_keysOf : key ∈ q.keysOf table ↔ q.rows table key ≠ [] := by
  simp [GroupedBy.keysOf, GroupedBy.rows, and_assoc]

variable (functions table q) in
lemma GroupedBy.exists_answers : ∃ groups, q.Answers functions table groups := by
  choose shown hshown using fun (key : List Value) (column : Latest) =>
    Latest.exists_shows functions table column (q.rows table key)
  have hkeys : ((q.keysOf table).map fun key => (⟨key, shown key⟩ : KeyedGroup ρ)).map KeyedGroup.key = q.keysOf table := by
    rw [List.map_map]
    exact List.map_id _
  refine ⟨(q.keysOf table).map fun key => ⟨key, shown key⟩, ?_, fun key => ?_, fun group hg column _ => ?_⟩
  · rw [hkeys]
    exact List.nodup_dedup _
  · rw [hkeys]
    exact GroupedBy.mem_keysOf
  · obtain ⟨key, -, rfl⟩ := List.mem_map.mp hg
    exact hshown key column

end Answers

end ChameleonVault.Sql
