import ChameleonVault.PiiRegistry.Entries
import Mathlib.Algebra.Order.Floor.Ring
import Mathlib.Algebra.Order.BigOperators.Group.List
import Mathlib.Data.Rat.Floor
import Mathlib.Tactic.Linarith
import Mathlib.Tactic.Ring

/-! The coverage score of a list of weighted items. -/

namespace ChameleonVault.Coverage

section Report

inductive CoverageState where
  | protectedState | partialState | exposedState
  deriving DecidableEq

structure CoverageItem where
  resourceId : String
  system : String
  state : CoverageState
  weight : ℚ
  reasons : List String
  deriving DecidableEq

structure Tally (α : Type) where
  protectedPart : α
  partialPart : α
  exposedPart : α
  total : α
  deriving DecidableEq

structure CoverageReport where
  score : ℤ
  counts : Tally ℕ
  weights : Tally ℚ
  items : List CoverageItem
  deriving DecidableEq

/-- `Math.round` -/
def mathRound (q : ℚ) : ℤ := ⌊q + 1 / 2⌋

def Tally.addTo {α : Type} [Add α] (tally : Tally α) (state : CoverageState) (x : α) : Tally α :=
  match state with
  | .protectedState => { tally with protectedPart := tally.protectedPart + x }
  | .partialState => { tally with partialPart := tally.partialPart + x }
  | .exposedState => { tally with exposedPart := tally.exposedPart + x }

def rollUp (tallies : Tally ℚ × Tally ℕ) (item : CoverageItem) : Tally ℚ × Tally ℕ :=
  let weights := { tallies.1 with total := tallies.1.total + item.weight }
  (weights.addTo item.state item.weight, tallies.2.addTo item.state 1)

def scoreOf (weights : Tally ℚ) : ℤ :=
  if weights.total = 0 then 100
  else mathRound ((weights.protectedPart + 0.5 * weights.partialPart) / weights.total * 100)

def order : CoverageState → ℕ
  | .exposedState => 0
  | .partialState => 1
  | .protectedState => 2

def computeCoverage (items : List CoverageItem) : CoverageReport :=
  let (weights, counts) := items.foldl rollUp (⟨0, 0, 0, 0⟩, ⟨0, 0, 0, items.length⟩)
  { score := scoreOf weights
    counts := counts
    weights := weights
    items := items.mergeSort fun a b => order a.state < order b.state ∨ order a.state = order b.state ∧ b.weight ≤ a.weight }

end Report

section Sums

variable {items items' : List CoverageItem} {state : CoverageState}

def weightOf (state : CoverageState) (items : List CoverageItem) : ℚ :=
  (items.map fun item => if item.state = state then item.weight else 0).sum

def countOf (state : CoverageState) (items : List CoverageItem) : ℕ := items.countP fun item => item.state = state

def totalWeight (items : List CoverageItem) : ℚ := (items.map CoverageItem.weight).sum

lemma foldl_rollUp (items : List CoverageItem) (weights : Tally ℚ) (counts : Tally ℕ) : items.foldl rollUp (weights, counts) =
    (⟨weights.protectedPart + weightOf .protectedState items, weights.partialPart + weightOf .partialState items,
      weights.exposedPart + weightOf .exposedState items, weights.total + totalWeight items⟩,
    ⟨counts.protectedPart + countOf .protectedState items, counts.partialPart + countOf .partialState items,
      counts.exposedPart + countOf .exposedState items, counts.total⟩) := by
  induction items generalizing weights counts with
  | nil => simp [weightOf, countOf, totalWeight]
  | cons item items ih =>
    rw [List.foldl_cons, rollUp, ih]
    cases hstate : item.state with
    | protectedState => simp [Tally.addTo, weightOf, countOf, totalWeight, hstate, add_assoc, add_comm, add_left_comm]
    | partialState => simp [Tally.addTo, weightOf, countOf, totalWeight, hstate, add_assoc, add_comm, add_left_comm]
    | exposedState => simp [Tally.addTo, weightOf, countOf, totalWeight, hstate, add_assoc, add_comm, add_left_comm]

lemma computeCoverage_weights (items : List CoverageItem) : (computeCoverage items).weights =
    ⟨weightOf .protectedState items, weightOf .partialState items, weightOf .exposedState items, totalWeight items⟩ := by
  simp [computeCoverage, foldl_rollUp]

lemma computeCoverage_counts (items : List CoverageItem) : (computeCoverage items).counts =
    ⟨countOf .protectedState items, countOf .partialState items, countOf .exposedState items, items.length⟩ := by
  simp [computeCoverage, foldl_rollUp]

lemma totalWeight_eq (items : List CoverageItem) : totalWeight items =
    weightOf .protectedState items + weightOf .partialState items + weightOf .exposedState items := by
  induction items with
  | nil => simp [totalWeight, weightOf]
  | cons item items ih =>
    simp only [totalWeight, weightOf, List.map_cons, List.sum_cons] at ih ⊢
    cases hstate : item.state with
    | protectedState => simp [ih]; ring
    | partialState => simp [ih]; ring
    | exposedState => simp [ih]; ring

lemma length_eq_countOf (items : List CoverageItem) : items.length =
    countOf .protectedState items + countOf .partialState items + countOf .exposedState items := by
  induction items with
  | nil => rfl
  | cons item items ih =>
    simp only [countOf, List.countP_cons, List.length_cons] at ih ⊢
    cases hstate : item.state with
    | protectedState => simp; omega
    | partialState => simp; omega
    | exposedState => simp; omega

lemma weightOf_nonneg (hpos : ∀ item ∈ items, 0 < item.weight) : 0 ≤ weightOf state items := by
  refine List.sum_nonneg fun w hw => ?_
  obtain ⟨item, hm, rfl⟩ := List.mem_map.mp hw
  split
  · exact (hpos item hm).le
  · exact le_refl 0

lemma totalWeight_pos (hpos : ∀ item ∈ items, 0 < item.weight) (hne : items ≠ []) : 0 < totalWeight items := by
  refine List.sum_pos _ (fun w hw => ?_) (by simpa using hne)
  obtain ⟨item, hm, rfl⟩ := List.mem_map.mp hw
  exact hpos item hm

lemma weightOf_perm (h : items.Perm items') : weightOf state items = weightOf state items' := (h.map _).sum_eq

lemma countOf_perm (h : items.Perm items') : countOf state items = countOf state items' := h.countP_eq _

lemma totalWeight_perm (h : items.Perm items') : totalWeight items = totalWeight items' := (h.map _).sum_eq

end Sums

section Scores

variable {items items' before after : List CoverageItem} {item : CoverageItem} {state : CoverageState}

/-- What the items earn: all of the weight of one that is protected, half of one that is partial. -/
def earned (items : List CoverageItem) : ℚ := weightOf .protectedState items + 0.5 * weightOf .partialState items

/-- What the items miss to be protected. -/
def unearned (items : List CoverageItem) : ℚ := weightOf .exposedState items + 0.5 * weightOf .partialState items

lemma earned_add_unearned (items : List CoverageItem) : earned items + unearned items = totalWeight items := by
  rw [earned, unearned, totalWeight_eq]
  ring

lemma earned_nonneg (hpos : ∀ item ∈ items, 0 < item.weight) : 0 ≤ earned items := by
  have hprotected : 0 ≤ weightOf .protectedState items := weightOf_nonneg hpos
  have hpartial : 0 ≤ weightOf .partialState items := weightOf_nonneg hpos
  rw [earned]
  linarith

lemma unearned_nonneg (hpos : ∀ item ∈ items, 0 < item.weight) : 0 ≤ unearned items := by
  have hexposed : 0 ≤ weightOf .exposedState items := weightOf_nonneg hpos
  have hpartial : 0 ≤ weightOf .partialState items := weightOf_nonneg hpos
  rw [unearned]
  linarith

lemma computeCoverage_score (items : List CoverageItem) : (computeCoverage items).score =
    if totalWeight items = 0 then 100 else mathRound (earned items / totalWeight items * 100) := by
  have hscore : (computeCoverage items).score = scoreOf (computeCoverage items).weights := rfl
  rw [hscore, computeCoverage_weights]
  rfl

lemma computeCoverage_score_nil : (computeCoverage []).score = 100 := rfl

lemma computeCoverage_score_of_ne (hpos : ∀ item ∈ items, 0 < item.weight) (hne : items ≠ []) :
    (computeCoverage items).score = mathRound (earned items / totalWeight items * 100) := by
  rw [computeCoverage_score, if_neg (totalWeight_pos hpos hne).ne']

lemma mathRound_mono {p q : ℚ} (h : p ≤ q) : mathRound p ≤ mathRound q := Int.floor_le_floor (by linarith)

inductive CoverageState.Improves : CoverageState → CoverageState → Prop where
  | declared : Improves .exposedState .partialState
  | completed : Improves .partialState .protectedState

lemma earned_improves (hpos : 0 < item.weight) (h : item.state.Improves state) :
    earned (before ++ item :: after) ≤ earned (before ++ { item with state := state } :: after) := by
  obtain ⟨resourceId, system, state', weight, reasons⟩ := item
  have hweight : 0 < weight := hpos
  cases h with
  | declared =>
    simp [earned, weightOf]
    linarith
  | completed =>
    simp [earned, weightOf]
    linarith

lemma totalWeight_improves :
    totalWeight (before ++ { item with state := state } :: after) = totalWeight (before ++ item :: after) := by
  simp [totalWeight]

lemma percent_mem (hpos : ∀ item ∈ items, 0 < item.weight) (hne : items ≠ []) :
    0 ≤ earned items / totalWeight items * 100 ∧ earned items / totalWeight items * 100 ≤ 100 := by
  have htotal := totalWeight_pos hpos hne
  have hearned := earned_nonneg hpos
  have hunearned := unearned_nonneg hpos
  have hadd := earned_add_unearned items
  have hle : earned items / totalWeight items ≤ 1 := (div_le_one htotal).mpr (by linarith)
  have hnonneg : 0 ≤ earned items / totalWeight items := div_nonneg hearned htotal.le
  constructor
  · linarith
  · linarith

lemma score_eq_hundred_iff (hpos : ∀ item ∈ items, 0 < item.weight) :
    (computeCoverage items).score = 100 ↔ 200 * unearned items ≤ totalWeight items := by
  by_cases hne : items = []
  · subst hne
    exact iff_of_true rfl (by simp [unearned, totalWeight, weightOf])
  · have htotal := totalWeight_pos hpos hne
    have hadd := earned_add_unearned items
    have hpercent : earned items / totalWeight items * 100 = earned items * 100 / totalWeight items := by ring
    obtain ⟨-, hle⟩ := percent_mem hpos hne
    rw [computeCoverage_score_of_ne hpos hne, mathRound, Int.floor_eq_iff]
    rw [hpercent] at hle ⊢
    constructor
    · rintro ⟨hlow, -⟩
      have hdiv : (199 / 2 : ℚ) ≤ earned items * 100 / totalWeight items := by
        push_cast at hlow
        linarith
      have hmul := (le_div_iff₀ htotal).mp hdiv
      linarith
    · intro h
      have hdiv : (199 / 2 : ℚ) ≤ earned items * 100 / totalWeight items := (le_div_iff₀ htotal).mpr (by linarith)
      push_cast
      constructor
      · linarith
      · linarith

lemma score_eq_zero_iff (hpos : ∀ item ∈ items, 0 < item.weight) (hne : items ≠ []) :
    (computeCoverage items).score = 0 ↔ 200 * earned items < totalWeight items := by
  have htotal := totalWeight_pos hpos hne
  have hpercent : earned items / totalWeight items * 100 = earned items * 100 / totalWeight items := by ring
  obtain ⟨hlow, -⟩ := percent_mem hpos hne
  rw [computeCoverage_score_of_ne hpos hne, mathRound, Int.floor_eq_zero_iff, Set.mem_Ico]
  rw [hpercent] at hlow ⊢
  constructor
  · rintro ⟨-, hhigh⟩
    have hdiv : earned items * 100 / totalWeight items < 1 / 2 := by linarith
    have hmul := (div_lt_iff₀ htotal).mp hdiv
    linarith
  · intro h
    have hdiv : earned items * 100 / totalWeight items < 1 / 2 := (div_lt_iff₀ htotal).mpr (by linarith)
    constructor
    · linarith
    · linarith

lemma score_bounds (hpos : ∀ item ∈ items, 0 < item.weight) :
    0 ≤ (computeCoverage items).score ∧ (computeCoverage items).score ≤ 100 := by
  by_cases hne : items = []
  · subst hne
    exact ⟨by decide, le_refl _⟩
  · obtain ⟨hlow, hhigh⟩ := percent_mem hpos hne
    rw [computeCoverage_score_of_ne hpos hne]
    constructor
    · exact Int.floor_nonneg.mpr (by linarith)
    · refine Int.le_of_lt_add_one (Int.floor_lt.mpr ?_)
      push_cast
      linarith

lemma score_improves (hpos : ∀ item' ∈ before ++ item :: after, 0 < item'.weight) (h : item.state.Improves state) :
    (computeCoverage (before ++ item :: after)).score ≤
      (computeCoverage (before ++ { item with state := state } :: after)).score := by
  have hne : before ++ item :: after ≠ [] := by simp
  have htotal := totalWeight_pos hpos hne
  have hweight : 0 < item.weight := hpos item (by simp)
  have hsame : totalWeight (before ++ { item with state := state } :: after) = totalWeight (before ++ item :: after) :=
    totalWeight_improves
  rw [computeCoverage_score, computeCoverage_score, hsame, if_neg htotal.ne', if_neg htotal.ne']
  refine mathRound_mono ?_
  have hearned : earned (before ++ item :: after) ≤ earned (before ++ { item with state := state } :: after) :=
    earned_improves hweight h
  have hdiv := div_le_div_of_nonneg_right hearned htotal.le
  linarith

end Scores

section Laws

structure CoverageLaws (items : List CoverageItem) : Prop where
  bounded : 0 ≤ (computeCoverage items).score ∧ (computeCoverage items).score ≤ 100
  unordered (items' : List CoverageItem) : items.Perm items' →
    (computeCoverage items').score = (computeCoverage items).score ∧
      (computeCoverage items').counts = (computeCoverage items).counts ∧
        (computeCoverage items').weights = (computeCoverage items).weights
  improves (before after : List CoverageItem) (item : CoverageItem) (state : CoverageState) :
    items = before ++ item :: after → item.state.Improves state →
      (computeCoverage items).score ≤ (computeCoverage (before ++ { item with state := state } :: after)).score
  counts : (computeCoverage items).counts.total = (computeCoverage items).counts.protectedPart +
    (computeCoverage items).counts.partialPart + (computeCoverage items).counts.exposedPart
  weights : (computeCoverage items).weights.total = (computeCoverage items).weights.protectedPart +
    (computeCoverage items).weights.partialPart + (computeCoverage items).weights.exposedPart
  whole : (computeCoverage items).score = 100 ↔ 200 * unearned items ≤ totalWeight items
  nothing : items ≠ [] → ((computeCoverage items).score = 0 ↔ 200 * earned items < totalWeight items)

theorem coverage_laws {items : List CoverageItem} (hpos : ∀ item ∈ items, 0 < item.weight) : CoverageLaws items where
  bounded := score_bounds hpos
  unordered items' h := by
    have hweights : (computeCoverage items').weights = (computeCoverage items).weights := by
      simp only [computeCoverage_weights, weightOf_perm h, totalWeight_perm h]
    refine ⟨congrArg scoreOf hweights, ?_, hweights⟩
    simp only [computeCoverage_counts, countOf_perm h, h.length_eq]
  improves before after item state hitems h := by
    subst hitems
    exact score_improves hpos h
  counts := by
    rw [computeCoverage_counts]
    exact length_eq_countOf items
  weights := by
    rw [computeCoverage_weights]
    exact totalWeight_eq items
  whole := score_eq_hundred_iff hpos
  nothing hne := score_eq_zero_iff hpos hne

def column (state : CoverageState) (weight : ℚ) : CoverageItem := ⟨"bigquery:p.d.users", "bigquery", state, weight, []⟩

theorem coverage_laws_mixed :
    CoverageLaws [column .protectedState 3, column .partialState 5, column .exposedState 5] :=
  coverage_laws (by decide +kernel)

/-- One column in two hundred does not show. -/
theorem score_hides_one_column :
    (∃ items, (∀ item ∈ items, 0 < item.weight) ∧ (computeCoverage items).score = 100 ∧
      ∃ item ∈ items, item.state ≠ .protectedState) ∧
    ∃ items, (∀ item ∈ items, 0 < item.weight) ∧ items ≠ [] ∧ (computeCoverage items).score = 0 ∧
      ∃ item ∈ items, item.state ≠ .exposedState := by
  constructor
  · exact ⟨column .exposedState 1 :: List.replicate 199 (column .protectedState 1), by decide +kernel⟩
  · exact ⟨column .protectedState 1 :: List.replicate 299 (column .exposedState 1), by decide +kernel⟩

end Laws

end ChameleonVault.Coverage
