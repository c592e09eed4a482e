import Mathlib.Data.List.Basic

/-! What a log says has happened since something else last did. The newest entry comes first,
and each entry is judged together with the log before it. -/

namespace ChameleonVault.Concurrency

variable {α : Type} {stop q : α → List α → Bool} {e : α} {log : List α}

def since (stop q : α → List α → Bool) : List α → Bool
  | [] => false
  | e :: log => q e log || (!stop e log && since stop q log)

lemma since_now (h : q e log = true) : since stop q (e :: log) = true := by
  simp [since, h]

lemma since_kept (hs : stop e log = false) (h : since stop q log = true) : since stop q (e :: log) = true := by
  simp [since, hs, h]

lemma not_since_cons (hs : stop e log = false) (h : since stop q (e :: log) = false) :
    q e log = false ∧ since stop q log = false := by
  simpa [since, hs] using h

/-- Of two things that never happen at once, one is the newer. -/
lemma since_asymm {p q : α → List α → Bool} (hpq : ∀ e log, p e log = true → q e log = false)
    (h : since p q log = true) : since q p log = false := by
  induction log with
  | nil => rfl
  | cons e log ih =>
    simp only [since, Bool.or_eq_true, Bool.and_eq_true, Bool.not_eq_true'] at h
    rcases h with hq | ⟨hp, h⟩
    · have hp : p e log = false := by
        rw [Bool.eq_false_iff]
        intro hp
        rw [hpq e log hp] at hq
        contradiction
      simp [since, hp, hq]
    · simp [since, hp, ih h]

section Prior

variable {p : α → Bool}

/-- What had happened before the newest entry of a kind. -/
def prior (p : α → Bool) : List α → List α
  | [] => []
  | e :: log => if p e then log else prior p log

@[simp] lemma prior_now (h : p e = true) : prior p (e :: log) = log := by
  simp [prior, h]

@[simp] lemma prior_other (h : p e = false) : prior p (e :: log) = prior p log := by
  simp [prior, h]

lemma subset_of_prior {β : Type} {known : List α → List β} (h : ∀ e log, known log ⊆ known (e :: log)) (log : List α) :
    known (prior p log) ⊆ known log := by
  induction log with
  | nil => exact List.Subset.refl _
  | cons e log ih =>
    cases he : p e with
    | true =>
      rw [prior_now he]
      exact h e log
    | false =>
      rw [prior_other he]
      exact List.Subset.trans ih (h e log)

lemma mem_filterMap_cons {β : Type} {f : α → Option β} {b : β} :
    b ∈ (e :: log).filterMap f ↔ f e = some b ∨ b ∈ log.filterMap f := by
  simp only [List.mem_filterMap, List.mem_cons, exists_eq_or_imp]

end Prior

section Recent

variable {p : α → Bool}

/-- What has happened since the newest entry of a kind. -/
def recent (p : α → Bool) (log : List α) : List α := log.takeWhile fun e => !p e

@[simp] lemma recent_now (h : p e = true) : recent p (e :: log) = [] := by
  simp [recent, h]

@[simp] lemma recent_other (h : p e = false) : recent p (e :: log) = e :: recent p log := by
  simp [recent, h]

/-- A window on the log, which each entry is added to or opens anew. -/
def window (opens : α → List α → Option (List α)) : List α → List α
  | [] => []
  | e :: log => e :: (opens e log).getD (window opens log)

variable {opens : α → List α → Option (List α)} {opened : List α}

@[simp] lemma window_opened (h : opens e log = some opened) : window opens (e :: log) = e :: opened := by
  simp [window, h]

@[simp] lemma window_kept (h : opens e log = none) : window opens (e :: log) = e :: window opens log := by
  simp [window, h]

end Recent

end ChameleonVault.Concurrency
