import Mathlib.Algebra.Order.Field.Basic
import Mathlib.Data.List.Sort
import Mathlib.Tactic.Linarith

/-! The median of a list, and how the values lie around it. -/

namespace ChameleonVault.Collections

variable {α : Type} [LinearOrder α]

section Positions

variable {sorted : List α} {i : ℕ} {a m : α}

lemma lt_countP_le (hs : sorted.Pairwise (· ≤ ·)) (hi : sorted[i]? = some a) (ha : a ≤ m) :
    i < sorted.countP (· ≤ m) := by
  obtain ⟨hlt, rfl⟩ := List.getElem?_eq_some_iff.mp hi
  have hall : ∀ b ∈ sorted.take (i + 1), decide (b ≤ m) = true := by
    intro b hb
    obtain ⟨j, hj, rfl⟩ := List.mem_iff_getElem.mp hb
    have hji : j ≤ i := by
      rw [List.length_take] at hj
      omega
    rw [List.getElem_take]
    apply decide_eq_true
    refine le_trans ?_ ha
    rcases hji.lt_or_eq with hji | rfl
    · exact List.pairwise_iff_getElem.mp hs j i _ hlt hji
    · exact le_refl _
  have hcount : (sorted.take (i + 1)).countP (· ≤ m) = i + 1 := by
    rw [List.countP_eq_length.mpr hall, List.length_take]
    omega
  have hle := (List.take_sublist (i + 1) sorted).countP_le (p := (· ≤ m))
  omega

lemma sub_le_countP_ge (hs : sorted.Pairwise (· ≤ ·)) (hi : sorted[i]? = some a) (ha : m ≤ a) :
    sorted.length - i ≤ sorted.countP (m ≤ ·) := by
  obtain ⟨hlt, rfl⟩ := List.getElem?_eq_some_iff.mp hi
  have hall : ∀ b ∈ sorted.drop i, decide (m ≤ b) = true := by
    intro b hb
    obtain ⟨j, hj, rfl⟩ := List.mem_iff_getElem.mp hb
    rw [List.getElem_drop]
    apply decide_eq_true
    refine ha.trans ?_
    rcases Nat.eq_zero_or_pos j with rfl | hj
    · exact le_refl _
    · exact List.pairwise_iff_getElem.mp hs i (i + j) hlt _ (by omega)
  have hcount : (sorted.drop i).countP (m ≤ ·) = sorted.length - i := by
    rw [List.countP_eq_length.mpr hall, List.length_drop]
  have hle := (List.drop_sublist i sorted).countP_le (p := (m ≤ ·))
  omega

end Positions

variable [Field α] {values : List α} {m : α}

/-- The value in the middle of the sorted list, or the mean of the two there. -/
def median (values : List α) : Option α :=
  if values.length = 0 then none
  else
    let sorted := values.insertionSort (· ≤ ·)
    let mid := sorted.length / 2
    if sorted.length % 2 = 0 then do
      let lower ← sorted[mid - 1]?
      let upper ← sorted[mid]?
      return (lower + upper) / 2
    else sorted[mid]?

lemma median_eq_none_iff : median values = none ↔ values = [] := by
  have hlen : (values.insertionSort (· ≤ ·)).length = values.length := List.length_insertionSort _ _
  rw [median]
  split_ifs with hlength
  · exact iff_of_true rfl (List.length_eq_zero_iff.mp hlength)
  refine iff_of_false ?_ fun h => hlength (congrArg List.length h)
  dsimp only
  split_ifs with heven
  · have hlower : values.length / 2 - 1 < (values.insertionSort (· ≤ ·)).length := by omega
    have hupper : values.length / 2 < (values.insertionSort (· ≤ ·)).length := by omega
    simp [hlen, List.getElem?_eq_getElem hlower, List.getElem?_eq_getElem hupper]
  · rw [List.getElem?_eq_none_iff]
    omega

variable [IsStrictOrderedRing α]

/-- At least half of the values are no greater than the median, and at least half are no smaller. -/
lemma median_halves (h : median values = some m) :
    values.length ≤ 2 * values.countP (· ≤ m) ∧ values.length ≤ 2 * values.countP (m ≤ ·) := by
  have hs : (values.insertionSort (· ≤ ·)).Pairwise (· ≤ ·) := List.pairwise_insertionSort (· ≤ ·) values
  have hperm := List.perm_insertionSort (· ≤ ·) values
  rw [median] at h
  rw [← hperm.countP_eq, ← hperm.countP_eq, ← hperm.length_eq]
  split_ifs at h with hlength
  dsimp only at h
  split_ifs at h with heven
  · simp only [Option.bind_eq_bind, Option.bind_eq_some_iff] at h
    obtain ⟨lower, hlower, upper, hupper, h⟩ := h
    obtain rfl := Option.some.inj h
    have hle : lower ≤ upper := by
      obtain ⟨hl, rfl⟩ := List.getElem?_eq_some_iff.mp hlower
      obtain ⟨hu, rfl⟩ := List.getElem?_eq_some_iff.mp hupper
      exact List.pairwise_iff_getElem.mp hs _ _ _ _ (by omega)
    have hlow : lower ≤ (lower + upper) / 2 := by linarith
    have hhigh : (lower + upper) / 2 ≤ upper := by linarith
    have hbelow := lt_countP_le hs hlower hlow
    have habove := sub_le_countP_ge hs hupper hhigh
    omega
  · have hbelow := lt_countP_le hs h le_rfl
    have habove := sub_le_countP_ge hs h le_rfl
    omega

lemma exists_le_median (h : median values = some m) : ∃ a ∈ values, a ≤ m := by
  have hne : values ≠ [] := fun hnil => by
    rw [median_eq_none_iff.mpr hnil] at h
    cases h
  have hpos : 0 < values.countP (· ≤ m) := by
    have hhalf := (median_halves h).1
    have := List.length_pos_iff.mpr hne
    omega
  obtain ⟨a, ha, hle⟩ := List.countP_pos_iff.mp hpos
  exact ⟨a, ha, of_decide_eq_true hle⟩

lemma exists_ge_median (h : median values = some m) : ∃ a ∈ values, m ≤ a := by
  have hne : values ≠ [] := fun hnil => by
    rw [median_eq_none_iff.mpr hnil] at h
    cases h
  have hpos : 0 < values.countP (m ≤ ·) := by
    have hhalf := (median_halves h).2
    have := List.length_pos_iff.mpr hne
    omega
  obtain ⟨a, ha, hle⟩ := List.countP_pos_iff.mp hpos
  exact ⟨a, ha, of_decide_eq_true hle⟩

end ChameleonVault.Collections
