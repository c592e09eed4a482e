import Mathlib.Data.List.Nodup
import Mathlib.Data.List.Perm.Subperm

/-! One page of a search: some of the matches, as many as there are or as a page holds. -/

namespace ChameleonVault.Collections

variable {α : Type}

def IsPage (bound : ℕ) (found page : List α) : Prop :=
  page.Nodup ∧ page ⊆ found ∧ page.length = min bound found.length

instance [DecidableEq α] (bound : ℕ) (found page : List α) : Decidable (IsPage bound found page) :=
  inferInstanceAs (Decidable (_ ∧ (∀ a ∈ page, a ∈ found) ∧ _))

variable {bound : ℕ} {found page : List α}

lemma isPage_take (hfound : found.Nodup) : IsPage bound found (found.take bound) :=
  ⟨hfound.sublist (List.take_sublist bound found), List.take_subset bound found, List.length_take⟩

/-- A page that is not the last one can leave out any of the matches. -/
lemma exists_page_without [DecidableEq α] (hfound : found.Nodup) (hmore : bound < found.length) (a : α) :
    ∃ page, IsPage bound found page ∧ a ∉ page := by
  have hnodup : (found.erase a).Nodup := hfound.erase a
  have hlength : bound ≤ (found.erase a).length := by
    have := List.length_erase (a := a) (l := found)
    split at this <;> omega
  refine ⟨(found.erase a).take bound, ⟨hnodup.sublist (List.take_sublist _ _), ?_, ?_⟩, ?_⟩
  · exact List.Subset.trans (List.take_subset _ _) List.erase_subset
  · rw [List.length_take]
    omega
  · exact fun ha => hfound.not_mem_erase (List.take_subset _ _ ha)

namespace IsPage

variable (h : IsPage bound found page)
include h

lemma length_eq (hbound : found.length ≤ bound) : page.length = found.length := by
  rw [h.2.2, Nat.min_eq_right hbound]

lemma complete (hbound : found.length ≤ bound) : found ⊆ page := by
  have hsub : List.Subperm page found := h.1.subperm h.2.1
  exact (hsub.perm_of_length_le (Nat.le_of_eq (h.length_eq hbound).symm)).symm.subset

end IsPage

end ChameleonVault.Collections
