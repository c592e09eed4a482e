import ChameleonVault.Collections.Latest
import ChameleonVault.Encoding.Binary64
import ChameleonVault.SigningKeys.Versions

/-! The two selectors of the newest enabled version of a signing key. -/

namespace ChameleonVault.SigningKeys

open Collections Encoding

section Selectors

structure ListedVersion where
  name : Option String
  state : String
  deriving DecidableEq

/-- What `listCryptoKeyVersionsAsync` gives of a key, filtered as both of the clients do. -/
def enabledVersionNames (versions : List ListedVersion) : List String := versions.filterMap fun version =>
  if version.state = "ENABLED" then version.name.filter (· ≠ "") else none

/-- `Number` of the last segment: the double closest to what the digits say, or else not a number. -/
def numberOf (versionName : String) : Option (WithTop ℕ) := (versionNumber versionName).map Binary64.ofNat

/-- The sign of `versionNumber(a) - versionNumber(b)`, where `NaN` counts as 0: the difference is not positive. -/
def notAfter (a b : String) : Bool :=
  match numberOf a, numberOf b with
  | some m, some n => m ≤ n
  | _, _ => true

/-- `versionNumber(a) > versionNumber(b) ? a : b` -/
def greaterOf (a b : String) : String :=
  match numberOf a, numberOf b with
  | some m, some n => if n < m then a else b
  | _, _ => b

/-- `[...versions].sort(...).pop()!`, which is undefined for no versions -/
def LocalSigningKmsClient.getNewestEnabledVersion (versions : List ListedVersion) : Except String (Option String) :=
  .ok ((enabledVersionNames versions).mergeSort notAfter).getLast?

def CloudKMSClient.selectNewestEnabledVersion (keyPath : String) (versions : List ListedVersion) : Except String String :=
  match enabledVersionNames versions with
  | [] => .error ("CryptoKey " ++ keyPath ++ " has no ENABLED versions")
  | version :: rest => .ok (rest.foldl greaterOf version)

end Selectors

section Agreement

def idOf (versionName : String) : ℕ := (versionNumber versionName).getD 0

def Numeric (versions : List ListedVersion) : Prop :=
  ∀ name ∈ enabledVersionNames versions, (versionNumber name).isSome = true

structure SelectorsAgree (keyPath : String) (versions : List ListedVersion) : Prop where
  selected (version : String) : LocalSigningKmsClient.getNewestEnabledVersion versions = .ok (some version) ↔
    CloudKMSClient.selectNewestEnabledVersion keyPath versions = .ok version
  failed : (∃ e, LocalSigningKmsClient.getNewestEnabledVersion versions = .error e) ↔
    ∃ e, CloudKMSClient.selectNewestEnabledVersion keyPath versions = .error e
  greatest (version : String) : CloudKMSClient.selectNewestEnabledVersion keyPath versions = .ok version →
    version ∈ enabledVersionNames versions ∧ ∀ name ∈ enabledVersionNames versions, idOf name ≤ idOf version

/-- There is an enabled version with the greatest id such that those listed after it do not become the same double
with a smaller id. -/
def Distinguished (versions : List ListedVersion) : Prop :=
  ∃ before version after, enabledVersionNames versions = before ++ version :: after ∧
    (∀ name ∈ enabledVersionNames versions, idOf name ≤ idOf version) ∧
      ∀ name ∈ after, Binary64.ofNat (idOf name) = Binary64.ofNat (idOf version) → idOf name = idOf version

variable {keyPath : String} {versions : List ListedVersion} {a b name version : String} {names : List String}

def keyOf (versionName : String) : WithTop ℕ := Binary64.ofNat (idOf versionName)

lemma numberOf_eq (h : (versionNumber name).isSome = true) : numberOf name = some (keyOf name) := by
  obtain ⟨n, hn⟩ := Option.isSome_iff_exists.mp h
  simp only [numberOf, keyOf, idOf, hn, Option.map_some, Option.getD_some]

lemma foldl_greaterOf (hname : (versionNumber name).isSome = true)
    (h : ∀ name ∈ names, (versionNumber name).isSome = true) :
    names.foldl greaterOf name = names.foldl (later keyOf) name := by
  induction names generalizing name with
  | nil => rw [List.foldl_nil, List.foldl_nil]
  | cons b names ih =>
    have hb := h b List.mem_cons_self
    have hstep : greaterOf name b = later keyOf name b := by
      simp only [greaterOf, numberOf_eq hname, numberOf_eq hb, later]
    have hnext : (versionNumber (later keyOf name b)).isSome = true := by
      rw [later]
      split
      · exact hname
      · exact hb
    rw [List.foldl_cons, List.foldl_cons, hstep]
    exact ih hnext fun c hc => h c (List.mem_cons_of_mem b hc)

lemma mergeSort_notAfter (h : ∀ name ∈ names, (versionNumber name).isSome = true) :
    names.mergeSort notAfter = names.mergeSort fun a b => keyOf a ≤ keyOf b := by
  have hsame : ∀ a ∈ names, ∀ b ∈ names, notAfter a b = decide (keyOf (id a) ≤ keyOf (id b)) := by
    intro a ha b hb
    simp only [notAfter, numberOf_eq (h a ha), numberOf_eq (h b hb), id]
  have hmap := List.map_mergeSort (s := fun a b => decide (keyOf a ≤ keyOf b)) hsame
  simpa using hmap

/-- Both of the selectors select the last among those whose ids become the greatest double. -/
lemma localSelector_eq_iff (hnumeric : Numeric versions) :
    LocalSigningKmsClient.getNewestEnabledVersion versions = .ok (some version) ↔
      IsLatest keyOf (enabledVersionNames versions) version := by
  rw [LocalSigningKmsClient.getNewestEnabledVersion]
  rw [mergeSort_notAfter hnumeric, Except.ok.injEq]
  refine ⟨isLatest_getLast_mergeSort, fun h => ?_⟩
  have hne : (enabledVersionNames versions).mergeSort (fun a b => decide (keyOf a ≤ keyOf b)) ≠ [] :=
    List.ne_nil_of_mem (List.mem_mergeSort.mpr h.mem)
  obtain ⟨last, hlast⟩ := Option.ne_none_iff_exists'.mp fun h => hne (List.getLast?_eq_none_iff.mp h)
  rw [hlast, h.unique (isLatest_getLast_mergeSort hlast)]

lemma cloudSelector_eq_iff (hnumeric : Numeric versions) :
    CloudKMSClient.selectNewestEnabledVersion keyPath versions = .ok version ↔
      IsLatest keyOf (enabledVersionNames versions) version := by
  rw [CloudKMSClient.selectNewestEnabledVersion]
  cases hnames : enabledVersionNames versions with
  | nil => exact iff_of_false nofun fun h => nomatch h.mem
  | cons name names =>
    rw [Numeric, hnames, List.forall_mem_cons] at hnumeric
    have hlatest : IsLatest keyOf (name :: names) (names.foldl greaterOf name) := by
      rw [foldl_greaterOf hnumeric.1 hnumeric.2]
      exact isLatest_foldl name names
    exact ⟨fun h => Except.ok.inj h ▸ hlatest, fun h => congrArg Except.ok (hlatest.unique h)⟩

lemma exists_selected (hne : enabledVersionNames versions ≠ []) :
    ∃ version, CloudKMSClient.selectNewestEnabledVersion keyPath versions = .ok version := by
  obtain ⟨name, names, hnames⟩ := List.exists_cons_of_ne_nil hne
  rw [CloudKMSClient.selectNewestEnabledVersion, hnames]
  exact ⟨_, rfl⟩

theorem selectors_agree_iff (hnumeric : Numeric versions) : SelectorsAgree keyPath versions ↔ Distinguished versions := by
  constructor
  · intro h
    have hok : ∃ version, CloudKMSClient.selectNewestEnabledVersion keyPath versions = .ok version := by
      cases hselect : CloudKMSClient.selectNewestEnabledVersion keyPath versions with
      | ok version => exact ⟨version, rfl⟩
      | error e =>
        obtain ⟨e', he'⟩ := h.failed.mpr ⟨e, hselect⟩
        cases he'
    obtain ⟨version, hselect⟩ := hok
    obtain ⟨before, after, hnames, -, hafter⟩ := ((cloudSelector_eq_iff hnumeric).mp hselect).split
    refine ⟨before, version, after, hnames, (h.greatest version hselect).2, fun name hname hsame => ?_⟩
    exact absurd hsame (hafter name hname).ne
  · rintro ⟨before, version, after, hnames, hgreatest, hafter⟩
    have hmem : version ∈ enabledVersionNames versions := by
      rw [hnames]
      simp
    refine ⟨fun version => (localSelector_eq_iff hnumeric).trans (cloudSelector_eq_iff hnumeric).symm, ?_, ?_⟩
    · refine iff_of_false nofun ?_
      rintro ⟨e, he⟩
      obtain ⟨selected, hselected⟩ : ∃ version, CloudKMSClient.selectNewestEnabledVersion keyPath versions = .ok version :=
        exists_selected (List.ne_nil_of_mem hmem)
      rw [hselected] at he
      cases he
    · intro chosen hchosen
      have hlatest := (cloudSelector_eq_iff hnumeric).mp hchosen
      refine ⟨hlatest.mem, fun name hname => (hgreatest name hname).trans ?_⟩
      have hkey : keyOf chosen = keyOf version :=
        le_antisymm (Binary64.ofNat_mono (hgreatest chosen hlatest.mem)) (hlatest.le hmem)
      rcases hlatest.mem_after hnames hkey.le with rfl | hm
      · exact le_refl _
      · exact (hafter chosen hm hkey).ge

theorem selectors_agree_rotated : SelectorsAgree "k" [⟨some "k/cryptoKeyVersions/10", "ENABLED"⟩,
    ⟨some "k/cryptoKeyVersions/2", "ENABLED"⟩, ⟨some "k/cryptoKeyVersions/11", "DISABLED"⟩] := by
  refine (selectors_agree_iff (by unfold Numeric; decide +kernel)).mpr ?_
  exact ⟨[], "k/cryptoKeyVersions/10", ["k/cryptoKeyVersions/2"], by decide +kernel⟩

/-- Without an enabled version the one throws and the other does not; beyond 2^53 both take a smaller id. -/
theorem selectors_differ :
    ¬SelectorsAgree "k" [⟨some "k/cryptoKeyVersions/1", "DISABLED"⟩] ∧
      ¬SelectorsAgree "k" [⟨some "k/cryptoKeyVersions/9007199254740993", "ENABLED"⟩,
        ⟨some "k/cryptoKeyVersions/9007199254740992", "ENABLED"⟩] := by
  constructor
  · intro h
    obtain ⟨e, he⟩ := h.failed.mpr ⟨_, rfl⟩
    cases he
  · intro h
    have hgreatest := (h.greatest "k/cryptoKeyVersions/9007199254740992" (by decide +kernel)).2
    exact absurd (hgreatest "k/cryptoKeyVersions/9007199254740993" (by decide +kernel)) (by decide +kernel)

end Agreement

end ChameleonVault.SigningKeys
