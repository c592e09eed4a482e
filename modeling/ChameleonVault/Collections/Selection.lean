import Mathlib.Data.List.Basic
import Mathlib.Order.Lattice

/-! The best member of a list, by a strict order given as a test. -/

namespace ChameleonVault.Collections

variable {α : Type} {better : α → α → Bool} {a b : α} {as bs : List α}

def best (better : α → α → Bool) : List α → Option α
  | [] => none
  | a :: as =>
    match best better as with
    | none => some a
    | some b => if better b a then some b else some a

/-- What a test must satisfy for the best to be beaten by nobody. -/
structure Ranks (better : α → α → Bool) : Prop where
  asymm (a b : α) : better a b = true → better b a = false
  split (a b c : α) : better a c = true → better a b = true ∨ better b c = true

lemma Ranks.irrefl (h : Ranks better) (a : α) : better a a = false := by
  cases ha : better a a with
  | false => rfl
  | true => exact ha.symm.trans (h.asymm a a ha)

lemma best_cons : best better (a :: as) = some (match best better as with
    | none => a
    | some b => if better b a then b else a) := by
  simp only [best]
  split
  · rfl
  · split <;> rfl

lemma best_mem (h : best better as = some a) : a ∈ as := by
  induction as generalizing a with
  | nil => contradiction
  | cons b bs ih =>
    rw [best_cons] at h
    obtain rfl := Option.some.inj h
    split
    · exact List.mem_cons_self
    · rename_i c hc
      split
      · exact List.mem_cons_of_mem b (ih hc)
      · exact List.mem_cons_self

lemma best_isSome (h : a ∈ as) : (best better as).isSome = true := by
  cases as with
  | nil => simp at h
  | cons b bs => rw [best_cons]; rfl

lemma best_unbeaten (hr : Ranks better) (h : best better as = some a) : ∀ b ∈ as, better b a = false := by
  induction as generalizing a with
  | nil => contradiction
  | cons c cs ih =>
    rw [best_cons] at h
    obtain rfl := Option.some.inj h
    intro b hb
    split
    · rename_i hn
      rcases List.mem_cons.mp hb with rfl | hb
      · exact hr.irrefl b
      · have hs : (best better cs).isSome = true := best_isSome hb
        rw [hn] at hs
        contradiction
    · rename_i d hd
      split
      · rename_i hdc
        rcases List.mem_cons.mp hb with rfl | hb
        · exact hr.asymm d b hdc
        · exact ih hd b hb
      · rename_i hdc
        rcases List.mem_cons.mp hb with rfl | hb
        · exact hr.irrefl b
        · rw [Bool.eq_false_iff]
          intro hbc
          rcases hr.split b d c hbc with hbd | hdc'
          · rw [ih hd b hb] at hbd
            contradiction
          · exact hdc hdc'

lemma best_eq_some_iff (hr : Ranks better)
    (hanti : ∀ a ∈ as, ∀ b ∈ as, better a b = false → better b a = false → a = b) :
    best better as = some a ↔ a ∈ as ∧ ∀ b ∈ as, better b a = false := by
  constructor
  · exact fun h => ⟨best_mem h, best_unbeaten hr h⟩
  · rintro ⟨ha, hb⟩
    have hs : (best better as).isSome = true := best_isSome ha
    obtain ⟨c, hc⟩ := Option.isSome_iff_exists.mp hs
    rw [hc, hanti c (best_mem hc) a ha (hb c (best_mem hc)) (best_unbeaten hr hc a ha)]

/-- The order of a pair of keys, the greater first. -/
lemma ranks_of_keys {κ ι : Type} [LinearOrder κ] [LinearOrder ι] (key : α → κ) (name : α → ι) :
    Ranks fun a b => decide (key b < key a) || decide (key b = key a) && decide (name b < name a) where
  asymm a b h := by
    simp only [Bool.or_eq_true, Bool.and_eq_true, decide_eq_true_eq] at h
    simp only [Bool.or_eq_false_iff, Bool.and_eq_false_imp, decide_eq_true_eq, decide_eq_false_iff_not, not_lt]
    rcases h with h | ⟨hk, hn⟩
    · exact ⟨h.le, fun he => absurd (he ▸ h) (lt_irrefl _)⟩
    · exact ⟨hk.le, fun _ => hn.le⟩
  split a b c h := by
    simp only [Bool.or_eq_true, Bool.and_eq_true, decide_eq_true_eq] at h ⊢
    rcases h with h | ⟨hk, hn⟩
    · rcases lt_trichotomy (key b) (key a) with hb | hb | hb
      · exact .inl (.inl hb)
      · exact .inr (.inl (hb ▸ h))
      · exact .inr (.inl (h.trans hb))
    · rcases lt_trichotomy (key b) (key a) with hb | hb | hb
      · exact .inl (.inl hb)
      · rcases lt_or_ge (name b) (name a) with hn' | hn'
        · exact .inl (.inr ⟨hb, hn'⟩)
        · exact .inr (.inr ⟨hk.trans hb.symm, hn.trans_le hn'⟩)
      · exact .inr (.inl (hk ▸ hb))

end ChameleonVault.Collections
