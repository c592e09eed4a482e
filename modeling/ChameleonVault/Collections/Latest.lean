import Mathlib.Data.List.Basic
import Mathlib.Data.List.Induction
import Mathlib.Order.Lattice

/-! The last among the greatest members of a list, by folding and by a stable sort. -/

namespace ChameleonVault.Collections

variable {α κ : Type} [LinearOrder κ] {key : α → κ} {as bs : List α} {a b : α}

/-- Of two members the greater, or else the later. -/
def later (key : α → κ) (a b : α) : α := if key b < key a then a else b

structure IsLatest (key : α → κ) (as : List α) (a : α) : Prop where
  split : ∃ before after, as = before ++ a :: after ∧ (∀ b ∈ before, key b ≤ key a) ∧ ∀ b ∈ after, key b < key a

lemma IsLatest.mem (h : IsLatest key as a) : a ∈ as := by
  obtain ⟨before, after, rfl, -, -⟩ := h.split
  simp

lemma IsLatest.le (h : IsLatest key as a) (hb : b ∈ as) : key b ≤ key a := by
  obtain ⟨before, after, rfl, hbefore, hafter⟩ := h.split
  rcases List.mem_append.mp hb with hb | hb
  · exact hbefore b hb
  · rcases List.mem_cons.mp hb with rfl | hb
    · exact le_refl _
    · exact (hafter b hb).le

/-- Another one of the greatest stands before the latest. -/
lemma IsLatest.mem_after (h : IsLatest key as a) {before after : List α} (has : as = before ++ b :: after)
    (hb : key a ≤ key b) : a = b ∨ a ∈ after := by
  obtain ⟨before', after', rfl, -, hafter⟩ := h.split
  have hnot : b ∉ after' := fun hm => absurd (hafter b hm) (not_lt.mpr hb)
  rcases List.append_eq_append_iff.mp has with ⟨w, -, hw⟩ | ⟨w, -, hw⟩
  · cases w with
    | nil => exact .inl (List.cons.inj hw).1
    | cons c w =>
      refine absurd ?_ hnot
      rw [(List.cons.inj hw).2]
      simp
  · cases w with
    | nil => exact .inl (List.cons.inj hw).1.symm
    | cons c w =>
      refine .inr ?_
      rw [(List.cons.inj hw).2]
      simp

lemma IsLatest.unique (ha : IsLatest key as a) (hb : IsLatest key as b) : a = b := by
  obtain ⟨before, after, has, -, hafter⟩ := hb.split
  rcases ha.mem_after has (hb.le ha.mem) with h | h
  · exact h
  · exact absurd (hafter a h) (not_lt.mpr (ha.le hb.mem))

lemma isLatest_concat (h : IsLatest key as a) : IsLatest key (as ++ [b]) (later key a b) := by
  obtain ⟨before, after, rfl, hbefore, hafter⟩ := h.split
  by_cases hlt : key b < key a
  · rw [later, if_pos hlt]
    refine ⟨before, after ++ [b], by simp, hbefore, fun c hc => ?_⟩
    rcases List.mem_append.mp hc with hc | hc
    · exact hafter c hc
    · rwa [List.mem_singleton.mp hc]
  · rw [later, if_neg hlt]
    exact ⟨before ++ a :: after, [], rfl, fun c hc => (h.le hc).trans (not_lt.mp hlt), nofun⟩

lemma isLatest_foldl (a : α) (as : List α) : IsLatest key (a :: as) (as.foldl (later key) a) := by
  induction as using List.reverseRecOn with
  | nil => exact ⟨[], [], rfl, nofun, nofun⟩
  | append_singleton as b ih =>
    rw [List.foldl_append]
    exact isLatest_concat ih

lemma le_trans_total (key : α → κ) : (∀ a b c : α, decide (key a ≤ key b) = true → decide (key b ≤ key c) = true →
    decide (key a ≤ key c) = true) ∧ ∀ a b : α, (decide (key a ≤ key b) || decide (key b ≤ key a)) = true := by
  refine ⟨fun a b c hab hbc => decide_eq_true ((of_decide_eq_true hab).trans (of_decide_eq_true hbc)), fun a b => ?_⟩
  simpa using le_total (key a) (key b)

/-- A stable sort leaves the members of one key in their order. -/
lemma filter_mergeSort (key : α → κ) (as : List α) (k : κ) :
    (as.mergeSort fun a b => key a ≤ key b).filter (fun b => key b = k) = as.filter fun b => key b = k := by
  obtain ⟨htrans, htotal⟩ := le_trans_total key
  have hequal : (as.filter fun b => key b = k).Pairwise fun b c => decide (key b ≤ key c) = true := by
    refine List.pairwise_of_forall_mem_list fun b hb c hc => decide_eq_true ?_
    rw [of_decide_eq_true (List.mem_filter.mp hb).2, of_decide_eq_true (List.mem_filter.mp hc).2]
  have hsub : (as.filter fun b => key b = k).Sublist (as.mergeSort fun a b => key a ≤ key b) :=
    List.sublist_mergeSort htrans htotal hequal List.filter_sublist
  have hsub' : (as.filter fun b => key b = k).Sublist
      ((as.mergeSort fun a b => key a ≤ key b).filter fun b => key b = k) := by
    simpa [List.filter_filter] using hsub.filter fun b => key b = k
  exact (hsub'.eq_of_length ((List.mergeSort_perm as _).filter _).length_eq.symm).symm

lemma le_getLast_mergeSort (h : (as.mergeSort fun a b => key a ≤ key b).getLast? = some a) (hb : b ∈ as) :
    key b ≤ key a := by
  obtain ⟨htrans, htotal⟩ := le_trans_total key
  obtain ⟨front, hfront⟩ := List.getLast?_eq_some_iff.mp h
  have hsorted := List.pairwise_mergeSort htrans htotal as
  have hb' : b ∈ front ++ [a] := hfront ▸ List.mem_mergeSort.mpr hb
  rw [hfront] at hsorted
  rcases List.mem_append.mp hb' with hb' | hb'
  · exact of_decide_eq_true ((List.pairwise_append.mp hsorted).2.2 b hb' a (List.mem_singleton_self a))
  · rw [List.mem_singleton.mp hb']

lemma isLatest_getLast_mergeSort (h : (as.mergeSort fun a b => key a ≤ key b).getLast? = some a) : IsLatest key as a := by
  obtain ⟨front, hfront⟩ := List.getLast?_eq_some_iff.mp h
  have hmem : a ∈ as := List.mem_mergeSort.mp (hfront ▸ List.mem_append_right front (List.mem_singleton_self a))
  obtain ⟨c, cs, rfl⟩ := List.exists_cons_of_ne_nil (List.ne_nil_of_mem hmem)
  have hlatest : IsLatest key (c :: cs) (cs.foldl (later key) c) := isLatest_foldl c cs
  have hkey : key (cs.foldl (later key) c) = key a := le_antisymm (le_getLast_mergeSort h hlatest.mem) (hlatest.le hmem)
  obtain ⟨before, after, has, -, hafter⟩ := hlatest.split
  have hnone : (after.filter fun b => key b = key a) = [] :=
    List.filter_eq_nil_iff.mpr fun b hb he => absurd (of_decide_eq_true he) (hkey ▸ (hafter b hb).ne)
  have hsame := filter_mergeSort key (c :: cs) (key a)
  rw [hfront, has] at hsame
  simp only [List.filter_append, List.filter_cons, hkey, hnone, decide_true, if_true, List.filter_nil] at hsame
  have hends : [a] = [cs.foldl (later key) c] := (List.append_inj' hsame rfl).2
  rw [List.singleton_inj.mp hends]
  exact hlatest

end ChameleonVault.Collections
