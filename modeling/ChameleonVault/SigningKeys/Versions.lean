import Mathlib.Data.List.Basic
import Mathlib.Data.Option.Basic

/-! The resource names of the versions of a signing key, and the newest of a list of them. -/

namespace ChameleonVault.SigningKeys

section Names

def versionName (keyPath : String) (number : ℕ) : String := keyPath ++ "/cryptoKeyVersions/" ++ toString number

def lastSegment (name : String) : List Char := (name.toList.reverse.takeWhile (· != '/')).reverse

/-- `Number` of the last segment, which is decimal in every name that KMS gives. Of anything
else it is taken not to be a number. -/
def versionNumber (name : String) : Option ℕ :=
  if (lastSegment name).all Char.isDigit && !(lastSegment name).isEmpty then some (Nat.ofDigitChars 10 (lastSegment name) 0)
  else none

variable {keyPath : String} {number : ℕ}

lemma lastSegment_versionName : lastSegment (versionName keyPath number) = Nat.toDigits 10 number := by
  have hdigits : ∀ c ∈ (Nat.toDigits 10 number).reverse, (c != '/') = true := by
    intro c hc
    have hdigit : c.isDigit := Nat.isDigit_of_mem_toDigits (by decide) (by decide) (List.mem_reverse.mp hc)
    rw [bne_iff_ne]
    rintro rfl
    exact absurd hdigit (by decide)
  have hname : (versionName keyPath number).toList.reverse =
      (Nat.toDigits 10 number).reverse ++ '/' :: (keyPath.toList ++ "/cryptoKeyVersions".toList).reverse := by
    simp [versionName, String.toList_append]
  rw [lastSegment, hname, List.takeWhile_append_of_pos hdigits]
  simp

lemma versionNumber_versionName : versionNumber (versionName keyPath number) = some number := by
  have hall : (Nat.toDigits 10 number).all Char.isDigit = true :=
    List.all_eq_true.mpr fun c hc => Nat.isDigit_of_mem_toDigits (by decide) (by decide) hc
  have hne : (Nat.toDigits 10 number).isEmpty = false := by
    rw [List.isEmpty_eq_false_iff]
    exact List.ne_nil_of_length_pos Nat.length_toDigits_pos
  simp only [versionNumber, lastSegment_versionName, hall, hne, Bool.not_false, Bool.and_self, if_true,
    Nat.ofDigitChars_ten_toDigits]

end Names

section Newest

/-- `versionNumber(a) > versionNumber(b)`, which is false when either is not a number. -/
def isNewer (a b : String) : Bool :=
  match versionNumber a, versionNumber b with
  | some m, some n => decide (n < m)
  | _, _ => false

def newerOf (a b : String) : String := if isNewer a b then a else b

def newest : List String → Option String
  | [] => none
  | v :: versions => some (versions.foldl newerOf v)

/-- `versionNumber(v) >= versionNumber(w)` -/
def atLeast (v w : String) : Bool :=
  match versionNumber v, versionNumber w with
  | some m, some n => decide (n ≤ m)
  | _, _ => false

variable {versions : List String} {u v w : String} {m n : ℕ}

lemma isNewer_iff (hv : versionNumber v = some m) (hw : versionNumber w = some n) : isNewer v w = true ↔ n < m := by
  simp only [isNewer, hv, hw, decide_eq_true_eq]

lemma atLeast_iff : atLeast v w = true ↔ ∃ m n, versionNumber v = some m ∧ versionNumber w = some n ∧ n ≤ m := by
  cases hv : versionNumber v with
  | none => simp [atLeast, hv]
  | some m =>
    cases hw : versionNumber w with
    | none => simp [atLeast, hv, hw]
    | some n => simp [atLeast, hv, hw]

lemma atLeast_refl (hv : (versionNumber v).isSome = true) : atLeast v v = true := by
  obtain ⟨m, hm⟩ := Option.isSome_iff_exists.mp hv
  exact atLeast_iff.mpr ⟨m, m, hm, hm, Nat.le_refl m⟩

lemma atLeast_trans (huv : atLeast u v = true) (hvw : atLeast v w = true) : atLeast u w = true := by
  obtain ⟨l, m, hu, hv, hml⟩ := atLeast_iff.mp huv
  obtain ⟨m', n, hv', hw, hnm⟩ := atLeast_iff.mp hvw
  obtain rfl := Option.some.inj (hv.symm.trans hv')
  exact atLeast_iff.mpr ⟨l, n, hu, hw, Nat.le_trans hnm hml⟩

lemma newerOf_cases (v w : String) : newerOf v w = v ∨ newerOf v w = w := by
  rw [newerOf]
  split
  · exact .inl rfl
  · exact .inr rfl

lemma newerOf_atLeast (hv : (versionNumber v).isSome = true) (hw : (versionNumber w).isSome = true) :
    atLeast (newerOf v w) v = true ∧ atLeast (newerOf v w) w = true := by
  obtain ⟨m, hm⟩ := Option.isSome_iff_exists.mp hv
  obtain ⟨n, hn⟩ := Option.isSome_iff_exists.mp hw
  rw [newerOf]
  split
  · rename_i h
    have hlt : n < m := (isNewer_iff hm hn).mp h
    exact ⟨atLeast_refl hv, atLeast_iff.mpr ⟨m, n, hm, hn, Nat.le_of_lt hlt⟩⟩
  · rename_i h
    have hle : m ≤ n := Nat.le_of_not_lt fun hlt => h ((isNewer_iff hm hn).mpr hlt)
    exact ⟨atLeast_iff.mpr ⟨n, m, hn, hm, hle⟩, atLeast_refl hw⟩

lemma foldl_newerOf_mem (v : String) (versions : List String) : versions.foldl newerOf v ∈ v :: versions := by
  induction versions generalizing v with
  | nil => exact List.mem_singleton_self v
  | cons w versions ih =>
    rw [List.foldl_cons]
    rcases List.mem_cons.mp (ih (newerOf v w)) with h | h
    · rw [h]
      rcases newerOf_cases v w with h | h
      · simp [h]
      · simp [h]
    · exact List.mem_cons_of_mem v (List.mem_cons_of_mem w h)

lemma foldl_newerOf_atLeast (hv : (versionNumber v).isSome = true)
    (hversions : ∀ w ∈ versions, (versionNumber w).isSome = true) :
    ∀ w ∈ v :: versions, atLeast (versions.foldl newerOf v) w = true := by
  induction versions generalizing v with
  | nil =>
    intro w hw
    obtain rfl := List.mem_singleton.mp hw
    exact atLeast_refl hv
  | cons u versions ih =>
    have hu : (versionNumber u).isSome = true := hversions u List.mem_cons_self
    have hsome : (versionNumber (newerOf v u)).isSome = true := by
      rcases newerOf_cases v u with h | h
      · rwa [h]
      · rwa [h]
    have hrest := ih hsome fun w hw => hversions w (List.mem_cons_of_mem u hw)
    have hfirst : atLeast (versions.foldl newerOf (newerOf v u)) (newerOf v u) = true := hrest _ List.mem_cons_self
    obtain ⟨hnv, hnu⟩ := newerOf_atLeast hv hu
    intro w hw
    rw [List.foldl_cons]
    rcases List.mem_cons.mp hw with rfl | hw
    · exact atLeast_trans hfirst hnv
    · rcases List.mem_cons.mp hw with rfl | hw
      · exact atLeast_trans hfirst hnu
      · exact hrest w (List.mem_cons_of_mem _ hw)

lemma newest_mem (h : newest versions = some v) : v ∈ versions := by
  cases versions with
  | nil => cases h
  | cons u versions => exact Option.some.inj h ▸ foldl_newerOf_mem u versions

lemma newest_atLeast (hversions : ∀ w ∈ versions, (versionNumber w).isSome = true) (h : newest versions = some v)
    (hw : w ∈ versions) : atLeast v w = true := by
  cases versions with
  | nil => cases h
  | cons u versions =>
    obtain rfl := Option.some.inj h
    exact foldl_newerOf_atLeast (hversions u List.mem_cons_self)
      (fun w hw => hversions w (List.mem_cons_of_mem u hw)) w hw

end Newest

end ChameleonVault.SigningKeys
