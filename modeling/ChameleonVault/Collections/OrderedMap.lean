import Mathlib.Data.List.Induction
import Mathlib.Data.List.Nodup

/-! Maps that keep their keys in the order of insertion. -/

namespace ChameleonVault.Collections

structure OrderedMap (K V : Type) where
  entries : List (K × V)
  nodup : (entries.map Prod.fst).Nodup

namespace OrderedMap

variable {K V : Type} [DecidableEq K] {m : OrderedMap K V} {k k' : K} {v v' : V}

def empty : OrderedMap K V := ⟨[], List.nodup_nil⟩

def values (m : OrderedMap K V) : List V := m.entries.map Prod.snd

def get? (k : K) (m : OrderedMap K V) : Option V := (m.entries.find? fun e => e.1 = k).map Prod.snd

def setEntry (k : K) (v : V) : List (K × V) → List (K × V)
  | [] => [(k, v)]
  | e :: es => if e.1 = k then (k, v) :: es else e :: setEntry k v es

lemma keys_setEntry (k : K) (v : V) (es : List (K × V)) : (setEntry k v es).map Prod.fst =
    if k ∈ es.map Prod.fst then es.map Prod.fst else es.map Prod.fst ++ [k] := by
  induction es with
  | nil => rfl
  | cons e es ih =>
    by_cases he : e.1 = k
    · simp [setEntry, he]
    · simp only [setEntry, he, if_false, List.map_cons, ih, List.mem_cons, Ne.symm he, false_or]
      split <;> rfl

def set (k : K) (v : V) (m : OrderedMap K V) : OrderedMap K V where
  entries := setEntry k v m.entries
  nodup := by
    rw [keys_setEntry]
    split
    · exact m.nodup
    · rename_i hk
      exact List.nodup_append.mpr ⟨m.nodup, List.nodup_singleton k, by
        rintro a ha b hb rfl
        exact hk (List.mem_singleton.mp hb ▸ ha)⟩

def erase (k : K) (m : OrderedMap K V) : OrderedMap K V where
  entries := m.entries.filter fun e => e.1 ≠ k
  nodup := m.nodup.sublist (List.filter_sublist.map Prod.fst)

def ofList (es : List (K × V)) : OrderedMap K V := es.foldl (fun m e => m.set e.1 e.2) empty

lemma get?_eq_some_iff : m.get? k = some v ↔ (k, v) ∈ m.entries := by
  simp only [get?, Option.map_eq_some_iff]
  constructor
  · rintro ⟨⟨k', v'⟩, hf, rfl⟩
    have hk : k' = k := by simpa using List.find?_some hf
    exact hk ▸ List.mem_of_find?_eq_some hf
  · intro hm
    cases hf : m.entries.find? fun e => e.1 = k with
    | none =>
      have hn := List.find?_eq_none.mp hf (k, v) hm
      simp at hn
    | some e =>
      have he := List.mem_of_find?_eq_some hf
      have hk : e.1 = k := by simpa using List.find?_some hf
      have heq := List.inj_on_of_nodup_map m.nodup he hm hk
      exact ⟨e, rfl, by rw [heq]⟩

lemma mem_values : v ∈ m.values ↔ ∃ k, m.get? k = some v := by
  simp only [values, List.mem_map, get?_eq_some_iff]
  constructor
  · rintro ⟨⟨k, v⟩, hm, rfl⟩
    exact ⟨k, hm⟩
  · rintro ⟨k, hm⟩
    exact ⟨(k, v), hm, rfl⟩

lemma find?_setEntry (k k' : K) (v : V) (es : List (K × V)) :
    ((setEntry k v es).find? fun e => e.1 = k').map Prod.snd =
      if k' = k then some v else (es.find? fun e => e.1 = k').map Prod.snd := by
  induction es with
  | nil =>
    by_cases hk : k' = k
    · simp [setEntry, hk]
    · simp [setEntry, hk, Ne.symm hk]
  | cons e es ih =>
    by_cases he : e.1 = k
    · by_cases hk : k' = k
      · simp [setEntry, he, hk]
      · simp [setEntry, he, hk, Ne.symm hk]
    · by_cases hk' : e.1 = k'
      · have hk : k' ≠ k := fun h => he (hk'.trans h)
        simp [setEntry, hk', hk]
      · simp only [setEntry, he, if_false, List.find?_cons, hk', decide_false]
        exact ih

lemma get?_set (k k' : K) (v : V) (m : OrderedMap K V) :
    (m.set k v).get? k' = if k' = k then some v else m.get? k' :=
  find?_setEntry k k' v m.entries

@[simp] lemma get?_set_self (k : K) (v : V) (m : OrderedMap K V) : (m.set k v).get? k = some v := by
  rw [get?_set, if_pos rfl]

lemma get?_set_ne (h : k' ≠ k) (v : V) (m : OrderedMap K V) : (m.set k v).get? k' = m.get? k' := by
  rw [get?_set, if_neg h]

lemma setEntry_of_not_mem {es : List (K × V)} (hk : k ∉ es.map Prod.fst) (v : V) : setEntry k v es = es ++ [(k, v)] := by
  induction es with
  | nil => rfl
  | cons e es ih =>
    rw [List.map_cons, List.mem_cons, not_or] at hk
    rw [setEntry, if_neg (Ne.symm hk.1), ih hk.2, List.cons_append]

lemma values_set_of_none (h : m.get? k = none) (v : V) : (m.set k v).values = m.values ++ [v] := by
  have hk : k ∉ m.entries.map Prod.fst := by
    intro hm
    obtain ⟨e, he, rfl⟩ := List.mem_map.mp hm
    rw [get?_eq_some_iff.mpr he] at h
    cases h
  have hvalues : (m.set k v).values = (setEntry k v m.entries).map Prod.snd := rfl
  rw [hvalues, setEntry_of_not_mem hk, List.map_append]
  rfl

@[simp] lemma get?_erase_self (k : K) (m : OrderedMap K V) : (m.erase k).get? k = none := by
  rw [Option.eq_none_iff_forall_not_mem]
  intro v hv
  have hm := get?_eq_some_iff.mp hv
  simp [erase] at hm

lemma get?_erase_ne (h : k' ≠ k) (m : OrderedMap K V) : (m.erase k).get? k' = m.get? k' := by
  ext v
  simp [get?_eq_some_iff, erase, h]

lemma ofList_append_singleton (es : List (K × V)) (e : K × V) : ofList (es ++ [e]) = (ofList es).set e.1 e.2 := by
  simp [ofList, List.foldl_append]

lemma get?_ofList (es : List (K × V)) (k : K) :
    (ofList es).get? k = (es.filter fun e => e.1 = k).getLast?.map Prod.snd := by
  induction es using List.reverseRecOn with
  | nil => rfl
  | append_singleton es e ih =>
    rw [ofList_append_singleton, get?_set, ih, List.filter_append]
    by_cases hk : e.1 = k
    · simp [hk]
    · simp [hk, Ne.symm hk]

lemma get?_ofList_append (es es' : List (K × V)) (k : K) :
    (ofList (es ++ es')).get? k = ((ofList es').get? k).or ((ofList es).get? k) := by
  simp only [get?_ofList, List.filter_append, List.getLast?_append]
  cases (es'.filter fun e => e.1 = k).getLast? <;> rfl

lemma mem_of_get?_ofList {es : List (K × V)} (h : (ofList es).get? k = some v) : (k, v) ∈ es := by
  rw [get?_ofList] at h
  obtain ⟨e, he, rfl⟩ := Option.map_eq_some_iff.mp h
  obtain ⟨hm, hk⟩ := List.mem_filter.mp (List.mem_of_getLast? he)
  rwa [← of_decide_eq_true hk]

lemma get?_ofList_eq_none {es : List (K × V)} : (ofList es).get? k = none ↔ ∀ e ∈ es, e.1 ≠ k := by
  simp [get?_ofList]

lemma get?_ofList_of_unique {es : List (K × V)} (hm : (k, v) ∈ es) (hu : ∀ v', (k, v') ∈ es → v' = v) :
    (ofList es).get? k = some v := by
  cases hget : (ofList es).get? k with
  | none => exact absurd rfl (get?_ofList_eq_none.mp hget _ hm)
  | some v' => rw [hu v' (mem_of_get?_ofList hget)]

/-- The elements of each key in their order, the keys in the order of their first elements. -/
def groupBy {α : Type} (key : α → K) (as : List α) : OrderedMap K (List α) :=
  as.foldl (fun m a => m.set (key a) ((m.get? (key a)).getD [] ++ [a])) empty

lemma get?_groupBy {α : Type} (key : α → K) (as : List α) (k : K) : (groupBy key as).get? k =
    if as.filter (fun a => key a = k) = [] then none else some (as.filter fun a => key a = k) := by
  induction as using List.reverseRecOn with
  | nil => rfl
  | append_singleton as a ih =>
    have hstep : groupBy key (as ++ [a]) =
        (groupBy key as).set (key a) (((groupBy key as).get? (key a)).getD [] ++ [a]) := by
      simp [groupBy, List.foldl_append]
    rw [hstep, get?_set, List.filter_append]
    by_cases hk : key a = k
    · subst hk
      have hget : ((groupBy key as).get? (key a)).getD [] = as.filter fun b => key b = key a := by
        rw [ih]
        split
        · rename_i hnil
          exact hnil.symm
        · rfl
      simp [hget]
    · simp [Ne.symm hk, hk, ih]

lemma mem_groupBy {α : Type} {key : α → K} {as bs : List α} :
    (k, bs) ∈ (groupBy key as).entries ↔ bs ≠ [] ∧ bs = as.filter fun a => key a = k := by
  rw [← get?_eq_some_iff, get?_groupBy]
  split
  · rename_i hnil
    simp +contextual [hnil]
  · rename_i hne
    constructor
    · rintro ⟨rfl⟩
      exact ⟨hne, rfl⟩
    · rintro ⟨-, rfl⟩
      rfl

lemma perm_values_of_get? {m' : OrderedMap K V} (h : ∀ k, m.get? k = m'.get? k) : m.values.Perm m'.values := by
  refine ((List.perm_ext_iff_of_nodup (List.Nodup.of_map _ m.nodup) (List.Nodup.of_map _ m'.nodup)).mpr ?_).map _
  rintro ⟨k, v⟩
  rw [← get?_eq_some_iff, ← get?_eq_some_iff, h k]

end OrderedMap

end ChameleonVault.Collections
