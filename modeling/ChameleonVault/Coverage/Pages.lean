import ChameleonVault.Audit.Attribution
import ChameleonVault.Coverage.Policy
import ChameleonVault.PiiRegistry.Composition

/-! The pages of policy, coverage and discovery beside what was declared. -/

namespace ChameleonVault.Coverage

open Audit (Audited Request Told Unattributed get?_startup_plain must_declare sent told_audited writings)
open Collections Concurrency
open Deletion (Reply)
open PiiRegistry

section Routes

structure PolicyPage where
  status : PolicyStatus
  evaluations : List RegistryPolicyEvaluation
  timestamp : String

structure CoveragePage where
  report : CoverageReport
  timestamp : String

structure ContentConfirmedFinding where
  resourceId : String
  columnName : String
  jsonPath : String
  classification : String
  pattern : String
  matchCount : ℕ
  sampledRows : ℕ
  scannedAt : String

structure DiscoveryPage where
  findings : List WarehouseDiscoveryFinding
  count : ℕ
  contentFindings : List ContentConfirmedFinding
  contentFindingCount : ℕ
  timestamp : String

abbrev DiscoverySource := Option (String → Except String (List WarehouseDiscoveryFinding))

abbrev ContentFindingsSource := Option (Except String (List ContentConfirmedFinding))

variable (header : Option String) (nowIso : String) (s : Registry)

def worst (evaluations : List RegistryPolicyEvaluation) : PolicyStatus :=
  if evaluations.any fun evaluation => evaluation.status = .fail then .fail
  else if evaluations.any fun evaluation => evaluation.status = .warn then .warn
  else .pass

def evaluateAll (tenantId : Option String) (s : Registry) : List RegistryPolicyEvaluation :=
  (listEntries { tenantId } s).map evaluateEntry

/-- `GET /pii-registry/policy` -/
def policy : Reply PolicyPage :=
  let evaluations := evaluateAll (tenantOf header) s
  .sent 200 ⟨worst evaluations, evaluations, nowIso⟩

/-- `GET /pii-registry/coverage` -/
def coverage (discoverySource : DiscoverySource) : Reply CoveragePage :=
  match discoverySource.elim (.ok []) fun findings => findings (tenantOf header) with
  | .ok discovery =>
    .sent 200 ⟨computeCoverage (toCoverageItems (listEntries { tenantId := tenantOf header } s) evaluatedStatus discovery),
      nowIso⟩
  | .error _ => .failed 500 "Internal server error"

def undeclaredIn (s : Registry) (tenantId resourceId : String) : Bool := (getEntry resourceId (some tenantId) s).isNone

/-- `GET /pii-registry/discovery` -/
def discovery (discoverySource : DiscoverySource) (contentFindingsSource : ContentFindingsSource) : Reply DiscoveryPage :=
  match discoverySource.elim (.ok []) fun findings => findings (tenantOf header) with
  | .error _ => .failed 500 "Internal server error"
  | .ok findings =>
    let undeclared := findings.filter fun finding => undeclaredIn s (tenantOf header) finding.resourceId
    let contentFindings := ((contentFindingsSource.getD (.ok [])).toOption.getD []).filter fun finding =>
      undeclaredIn s (tenantOf header) finding.resourceId
    .sent 200 ⟨undeclared, undeclared.length, contentFindings, contentFindings.length, nowIso⟩

end Routes

section Known

/-- What the platform lists for everyone, and what the tenant has declared and not removed, as the replies tell. -/
def Known (p : Platform) (replies : List (Request × Audit.Answered)) (tenantId resourceId : String) : Prop :=
  writings tenantId resourceId replies ≠ [] ∨ (p.startup ∅).get? (keyOf none resourceId) ≠ none

instance decidableKnown (p : Platform) (replies : List (Request × Audit.Answered)) (tenantId resourceId : String) :
    Decidable (Known p replies tenantId resourceId) := inferInstanceAs (Decidable (_ ∨ _))

variable {getTime : String → Option ℤ} {service : SourceRedactionService} {p : Platform}
  {replies : List (Request × Audit.Answered)} {s t : World} {tenantId resourceId : String} {entry : PiiRegistryEntry}

lemma own_ne_none_iff (h : Told p replies s) (ht : Plain tenantId) :
    s.registry.entries.get? (keyOf (some tenantId) resourceId) ≠ none ↔ writings tenantId resourceId replies ≠ [] := by
  have hown := h.own tenantId resourceId ht
  cases hget : s.registry.entries.get? (keyOf (some tenantId) resourceId) with
  | none =>
    rw [hget] at hown
    have hnil : writings tenantId resourceId replies = [] := hown
    simp [hnil]
  | some entry =>
    rw [hget] at hown
    have hattributed : Audit.Attributed tenantId resourceId (writings tenantId resourceId replies) entry := hown
    exact iff_of_true (Option.some_ne_none _) hattributed.written

lemma undeclaredIn_iff (h : Told p replies s) (ht : Plain tenantId) :
    undeclaredIn s.registry tenantId resourceId = true ↔ ¬Known p replies tenantId resourceId := by
  rw [undeclaredIn, getEntry, Option.isNone_iff_eq_none, Option.or_eq_none_iff, Known, ← own_ne_none_iff h ht, h.shared]
  tauto

lemma mem_listed : entry ∈ listEntries { tenantId := tenantId } s.registry ↔
    entry ∈ s.registry.entries.values ∧ (entry.tenantId = none ∨ entry.tenantId = some tenantId) := by
  simp [listEntries, visibleTo, KeyRegistry.truthy]

lemma mem_resources_iff (h : Told p replies s) (hwide : p.Wide) (ht : Plain tenantId) :
    resourceId ∈ (listEntries { tenantId := tenantId } s.registry).map PiiRegistryEntry.resourceId ↔
      Known p replies tenantId resourceId := by
  rw [List.mem_map, Known, ← own_ne_none_iff h ht, ← h.shared]
  constructor
  · rintro ⟨entry, hm, rfl⟩
    obtain ⟨hvalue, htenant⟩ := mem_listed.mp hm
    have hget := h.keyed.mem_values.mp hvalue
    rw [PiiRegistryEntry.key] at hget
    rcases htenant with htenant | htenant
    · rw [htenant] at hget
      exact .inr (Option.ne_none_iff_exists'.mpr ⟨entry, hget⟩)
    · rw [htenant] at hget
      exact .inl (Option.ne_none_iff_exists'.mpr ⟨entry, hget⟩)
  · rintro (hne | hne)
    · obtain ⟨entry, hget⟩ := Option.ne_none_iff_exists'.mp hne
      have hown := h.own tenantId resourceId ht
      rw [hget] at hown
      have hattributed : Audit.Attributed tenantId resourceId (writings tenantId resourceId replies) entry := hown
      exact ⟨entry, mem_listed.mpr ⟨OrderedMap.mem_values.mpr ⟨_, hget⟩, .inr hattributed.tenantId⟩,
        hattributed.resourceId⟩
    · obtain ⟨entry, hget⟩ := Option.ne_none_iff_exists'.mp hne
      have hkey := h.keyed _ entry hget
      rw [h.shared] at hget
      have htenant : entry.tenantId = none := by
        rcases mem_startup (OrderedMap.mem_values.mpr ⟨_, hget⟩) with hm | ⟨id, hl, -⟩
        · exact (hwide entry hm).2
        · cases hl
      rw [← h.shared] at hget
      rw [PiiRegistryEntry.key, htenant] at hkey
      exact ⟨entry, mem_listed.mpr ⟨OrderedMap.mem_values.mpr ⟨_, hget⟩, .inl htenant⟩, keyOf_none_inj hkey⟩

end Known

section Pages

/-- A report about declared entries and findings of nothing declared. -/
structure Covers (declared : List PiiRegistryEntry) (undeclared : List WarehouseDiscoveryFinding)
    (report : CoverageReport) : Prop where
  items : report.items.Perm (declared.map (declaredItem evaluatedStatus) ++ undeclared.map undeclaredItem)
  bounded : 0 ≤ report.score ∧ report.score ≤ 100
  protectedWeight : report.weights.protectedPart =
    (declared.map fun entry => if Shreddable entry then entryWeight entry else 0).sum
  exposedWeight : report.weights.exposedPart =
    (declared.map fun entry => if Violates entry then entryWeight entry else 0).sum +
      (undeclared.map discoveryWeight).sum
  total : report.weights.total = (declared.map entryWeight).sum + (undeclared.map discoveryWeight).sum
  whole : (∀ entry ∈ declared, Shreddable entry) → undeclared = [] → report.score = 100

variable {getTime : String → Option ℤ} {service : SourceRedactionService} {p : Platform}
  {replies : List (Request × Audit.Answered)} {s t : World} {header : Option String} {nowIso : String}
  {findings : List WarehouseDiscoveryFinding} {declared : List PiiRegistryEntry}

lemma weightOf_append {state : CoverageState} {items items' : List CoverageItem} :
    weightOf state (items ++ items') = weightOf state items + weightOf state items' := by
  simp [weightOf]

lemma totalWeight_append {items items' : List CoverageItem} :
    totalWeight (items ++ items') = totalWeight items + totalWeight items' := by
  simp [totalWeight]

lemma totalWeight_declared (declared : List PiiRegistryEntry) :
    totalWeight (declared.map (declaredItem evaluatedStatus)) = (declared.map entryWeight).sum := by
  rw [totalWeight, List.map_map]
  rfl

lemma totalWeight_undeclared (findings : List WarehouseDiscoveryFinding) :
    totalWeight (findings.map undeclaredItem) = (findings.map discoveryWeight).sum := by
  rw [totalWeight, List.map_map]
  rfl

lemma weightOf_declared {state : CoverageState} {P : PiiRegistryEntry → Prop} [DecidablePred P]
    (h : ∀ entry, (classifyEntry entry (evaluatedStatus entry)).1 = state ↔ P entry) :
    weightOf state (declared.map (declaredItem evaluatedStatus)) =
      (declared.map fun entry => if P entry then entryWeight entry else 0).sum := by
  rw [weightOf, List.map_map]
  refine congrArg List.sum (List.map_congr_left fun entry _ => ?_)
  simp only [Function.comp_apply, declaredItem, h]

lemma weightOf_undeclared {state : CoverageState} : weightOf state (findings.map undeclaredItem) =
    if state = .exposedState then (findings.map discoveryWeight).sum else 0 := by
  rw [weightOf, List.map_map]
  cases state with
  | exposedState => simp [undeclaredItem, Function.comp_def]
  | protectedState => simp [undeclaredItem, Function.comp_def]
  | partialState => simp [undeclaredItem, Function.comp_def]

lemma covers (declared : List PiiRegistryEntry) (undeclared : List WarehouseDiscoveryFinding) :
    Covers declared undeclared
      (computeCoverage (declared.map (declaredItem evaluatedStatus) ++ undeclared.map undeclaredItem)) := by
  have hpos : ∀ item ∈ declared.map (declaredItem evaluatedStatus) ++ undeclared.map undeclaredItem, 0 < item.weight := by
    intro item hm
    rcases List.mem_append.mp hm with hm | hm
    · obtain ⟨entry, -, rfl⟩ := List.mem_map.mp hm
      exact entryWeight_pos
    · obtain ⟨finding, -, rfl⟩ := List.mem_map.mp hm
      exact discoveryWeight_pos
  refine ⟨List.mergeSort_perm _ _, score_bounds hpos, ?_, ?_, ?_, fun hall hnone => ?_⟩
  · rw [computeCoverage_weights]
    dsimp only
    rw [weightOf_append, weightOf_undeclared, weightOf_declared fun _ => protected_iff, if_neg (by decide), add_zero]
  · rw [computeCoverage_weights]
    dsimp only
    rw [weightOf_append, weightOf_undeclared, weightOf_declared fun _ => exposed_iff.trans fail_iff, if_pos rfl]
  · rw [computeCoverage_weights, totalWeight_append, totalWeight_declared, totalWeight_undeclared]
  · rw [score_eq_hundred_iff hpos, hnone, List.map_nil, List.append_nil]
    have htotal := totalWeight_eq (declared.map (declaredItem evaluatedStatus))
    have hprotected : weightOf .protectedState (declared.map (declaredItem evaluatedStatus)) =
        totalWeight (declared.map (declaredItem evaluatedStatus)) := by
      rw [weightOf_declared fun _ => protected_iff, totalWeight_declared]
      exact congrArg List.sum (List.map_congr_left fun entry hm => if_pos (hall entry hm))
    have hexposed : 0 ≤ weightOf .exposedState (declared.map (declaredItem evaluatedStatus)) :=
      weightOf_nonneg fun item hm => hpos item (List.mem_append_left _ hm)
    have hpartial : 0 ≤ weightOf .partialState (declared.map (declaredItem evaluatedStatus)) :=
      weightOf_nonneg fun item hm => hpos item (List.mem_append_left _ hm)
    have hweight : 0 ≤ weightOf .protectedState (declared.map (declaredItem evaluatedStatus)) :=
      weightOf_nonneg fun item hm => hpos item (List.mem_append_left _ hm)
    rw [unearned]
    linarith

lemma worst_fail_iff (declared : List PiiRegistryEntry) :
    worst (declared.map evaluateEntry) = .fail ↔ ∃ entry ∈ declared, Violates entry := by
  have hany : ((declared.map evaluateEntry).any fun evaluation => evaluation.status = .fail) = true ↔
      ∃ entry ∈ declared, Violates entry := by
    simp only [List.any_map, List.any_eq_true, Function.comp_apply, decide_eq_true_eq, ← fail_iff, evaluatedStatus]
  rw [← hany, worst]
  split_ifs <;> simp_all

/-- What the three pages show a tenant, of what was found in the warehouse. -/
structure Shows (p : Platform) (replies : List (Request × Audit.Answered)) (t : World) (header : Option String)
    (nowIso : String) (findings : List WarehouseDiscoveryFinding) (contentFindings : List ContentConfirmedFinding)
    (declared : List PiiRegistryEntry) (undeclared : List WarehouseDiscoveryFinding) : Prop where
  resources (resourceId : String) :
    resourceId ∈ declared.map PiiRegistryEntry.resourceId ↔ Known p replies (tenantOf header) resourceId
  unknown : undeclared = findings.filter fun finding => ¬Known p replies (tenantOf header) finding.resourceId
  discovery : ∃ confirmed, confirmed = (contentFindings.filter fun finding =>
      ¬Known p replies (tenantOf header) finding.resourceId) ∧
    Coverage.discovery header nowIso t.registry (some fun _ => .ok findings) (some (.ok contentFindings)) =
      .sent 200 ⟨undeclared, undeclared.length, confirmed, confirmed.length, nowIso⟩
  coverage : ∃ report, Coverage.coverage header nowIso t.registry (some fun _ => .ok findings) =
      .sent 200 ⟨report, nowIso⟩ ∧ Covers declared undeclared report
  policy : ∃ status, Coverage.policy header nowIso t.registry =
      .sent 200 ⟨status, declared.map evaluateEntry, nowIso⟩ ∧ (status = .fail ↔ ∃ entry ∈ declared, Violates entry)

lemma toCoverageItems_eq (h : Told p replies t) (hwide : p.Wide) (ht : Plain (tenantOf header)) :
    toCoverageItems (listEntries { tenantId := tenantOf header } t.registry) evaluatedStatus findings =
      (listEntries { tenantId := tenantOf header } t.registry).map (declaredItem evaluatedStatus) ++
        (findings.filter fun finding => ¬Known p replies (tenantOf header) finding.resourceId).map undeclaredItem := by
  rw [toCoverageItems]
  congr 2
  refine List.filter_congr fun finding _ => decide_eq_decide.mpr (not_congr ?_)
  exact mem_resources_iff h hwide ht

lemma filter_undeclaredIn {α : Type} (h : Told p replies t) (ht : Plain (tenantOf header)) (resourceId : α → String)
    (found : List α) : found.filter (fun finding => undeclaredIn t.registry (tenantOf header) (resourceId finding)) =
      found.filter fun finding => ¬Known p replies (tenantOf header) (resourceId finding) := by
  refine List.filter_congr fun finding _ => Bool.eq_iff_iff.mpr ?_
  rw [undeclaredIn_iff h ht, decide_eq_true_iff]

def coveredDeclaration : PiiRegistryDeclarationInput where
  resourceId := some "bigquery:p.d.users"
  system := some "bigquery"
  tenantIdColumn := some "tenant_id"
  userIdColumn := some "user_id"
  piiFields := some [{ name := some "email", classification := some "CONTACT", handling := some "TOKENIZE" }]

def found : List WarehouseDiscoveryFinding :=
  [{ resourceId := "bigquery:p.d.users", system := "bigquery", registryStatus := .unregistered, columns := ["email"],
      lastSeen := "1970-01-01T00:00:00.000Z" },
    { resourceId := "bigquery:p.d.orders", system := "bigquery", registryStatus := .unregistered, columns := ["city"],
      lastSeen := "1970-01-01T00:00:00.000Z" }]

def declareCovered : Request := .upsert (some "acme") coveredDeclaration none 0 (some "ada")

def answers : List Answer := [.done, .store .done, .store .done, .done]

end Pages

section Declarations

variable {getTime : String → Option ℤ} {service : SourceRedactionService} {p : Platform}
  {replies : List (Request × Audit.Answered)} {s t : World} {header header' : Option String} {nowIso : String}
  {findings : List WarehouseDiscoveryFinding} {body : PiiRegistryDeclarationInput} {resourceIdFromPath : Option String}
  {now : KeyRegistry.Date} {actorEmail : Option String} {reply : PiiRegistry.Reply} {entry : PiiRegistryEntry}
  {tenantId tenantId' resourceId : String} {items items' : List CoverageItem} {r r' : Registry}

lemma score_le_of_cross (hpos : ∀ item ∈ items, 0 < item.weight) (hpos' : ∀ item ∈ items', 0 < item.weight)
    (hne : items ≠ []) (hne' : items' ≠ [])
    (h : earned items * totalWeight items' ≤ earned items' * totalWeight items) :
    (computeCoverage items).score ≤ (computeCoverage items').score := by
  have hdiv : earned items / totalWeight items ≤ earned items' / totalWeight items' :=
    (div_le_div_iff₀ (totalWeight_pos hpos hne) (totalWeight_pos hpos' hne')).mpr h
  rw [computeCoverage_score_of_ne hpos hne, computeCoverage_score_of_ne hpos' hne']
  exact mathRound_mono (by linarith)

lemma earned_append : earned (items ++ items') = earned items + earned items' := by
  rw [earned, earned, earned, weightOf_append, weightOf_append]
  ring

lemma earned_undeclared : earned (findings.map undeclaredItem) = 0 := by
  rw [earned, weightOf_undeclared, weightOf_undeclared, if_neg (by decide), if_neg (by decide)]
  norm_num

lemma totalWeight_filter_le {P : WarehouseDiscoveryFinding → Bool} :
    totalWeight ((findings.filter P).map undeclaredItem) ≤ totalWeight (findings.map undeclaredItem) := by
  rw [totalWeight_undeclared, totalWeight_undeclared]
  refine List.Sublist.sum_le_sum (List.filter_sublist.map _) fun weight hm => ?_
  obtain ⟨finding, -, rfl⟩ := List.mem_map.mp hm
  exact discoveryWeight_pos.le

/-- Something protected in the place of findings, beside what there is. -/
lemma score_le_declared {P : WarehouseDiscoveryFinding → Bool} {declared : List PiiRegistryEntry} (h : Shreddable entry) :
    (computeCoverage (declared.map (declaredItem evaluatedStatus) ++ findings.map undeclaredItem)).score ≤
      (computeCoverage ((declared ++ [entry]).map (declaredItem evaluatedStatus) ++
        (findings.filter P).map undeclaredItem)).score := by
  have hpos {declared : List PiiRegistryEntry} {findings : List WarehouseDiscoveryFinding} :
      ∀ item ∈ declared.map (declaredItem evaluatedStatus) ++ findings.map undeclaredItem, 0 < item.weight := by
    intro item hm
    rcases List.mem_append.mp hm with hm | hm
    · obtain ⟨entry, -, rfl⟩ := List.mem_map.mp hm
      exact entryWeight_pos
    · obtain ⟨finding, -, rfl⟩ := List.mem_map.mp hm
      exact discoveryWeight_pos
  have hstate : (declaredItem evaluatedStatus entry).state = .protectedState := protected_iff.mpr h
  have hearned : earned [declaredItem evaluatedStatus entry] = entryWeight entry := by
    simp [earned, weightOf, hstate]
    rfl
  have htotal : totalWeight [declaredItem evaluatedStatus entry] = entryWeight entry := by
    simp [totalWeight, declaredItem]
  by_cases hne : declared.map (declaredItem evaluatedStatus) ++ findings.map undeclaredItem = []
  · obtain ⟨hdeclared, hfindings⟩ := List.append_eq_nil_iff.mp hne
    have hall := (covers (declared ++ [entry]) (findings.filter P)).whole ?_ ?_
    · rw [hne, hall]
      exact le_of_eq computeCoverage_score_nil
    · rw [List.map_eq_nil_iff.mp hdeclared]
      exact fun entry' hm => List.mem_singleton.mp hm ▸ h
    · rw [List.map_eq_nil_iff.mp hfindings, List.filter_nil]
  · refine score_le_of_cross hpos hpos hne (by simp) ?_
    have hle : earned (declared.map (declaredItem evaluatedStatus)) ≤ totalWeight (declared.map (declaredItem evaluatedStatus)) := by
      have hadd := earned_add_unearned (declared.map (declaredItem evaluatedStatus))
      have hunearned := unearned_nonneg fun item hm => @hpos declared findings item (List.mem_append_left _ hm)
      linarith
    have hnonneg : 0 ≤ earned (declared.map (declaredItem evaluatedStatus)) :=
      earned_nonneg fun item hm => @hpos declared findings item (List.mem_append_left _ hm)
    have hfewer := @totalWeight_filter_le findings P
    have hrest : 0 ≤ totalWeight (findings.map undeclaredItem) := by
      rw [totalWeight_undeclared]
      refine List.sum_nonneg fun weight hm => ?_
      obtain ⟨finding, -, rfl⟩ := List.mem_map.mp hm
      exact discoveryWeight_pos.le
    have hweight := @entryWeight_pos entry
    simp only [List.map_append, List.map_cons, List.map_nil, earned_append, totalWeight_append, earned_undeclared, hearned,
      htotal, add_zero]
    generalize earned (declared.map (declaredItem evaluatedStatus)) = e at *
    generalize totalWeight (declared.map (declaredItem evaluatedStatus)) = d at *
    have hshare : e * entryWeight entry ≤ entryWeight entry * d := by nlinarith
    have hfindings := mul_le_mul_of_nonneg_left hfewer hnonneg
    have hgain := mul_nonneg hweight.le hrest
    nlinarith

lemma listEntries_set (hnone : r.entries.get? (keyOf (some tenantId) resourceId) = none)
    (hset : r'.entries = r.entries.set (keyOf (some tenantId) resourceId) entry) (htenant : entry.tenantId = some tenantId) :
    listEntries { tenantId := tenantId' } r' =
      listEntries { tenantId := tenantId' } r ++ if tenantId' = tenantId then [entry] else [] := by
  have hlisted (r : Registry) : listEntries { tenantId := tenantId' } r =
      r.entries.values.filter (visibleTo (some tenantId')) := by
    simp [listEntries, KeyRegistry.truthy]
  rw [hlisted, hlisted, hset, OrderedMap.values_set_of_none hnone, List.filter_append]
  by_cases hsame : tenantId' = tenantId
  · simp [visibleTo, htenant, hsame]
  · simp [visibleTo, htenant, hsame, Ne.symm hsame]

/-- What a tenant's first declaration of a resource makes of the registry. -/
structure FirstDeclared (tenantId resourceId : String) (entry : PiiRegistryEntry) (r r' : Registry) : Prop where
  absent : getEntry resourceId (some tenantId) r = none
  owner : entry.tenantId = some tenantId
  subject : entry.resourceId = resourceId
  entries : r'.entries = r.entries.set (keyOf (some tenantId) resourceId) entry

lemma FirstDeclared.listEntries (h : FirstDeclared tenantId resourceId entry r r') (tenantId' : String) :
    listEntries { tenantId := tenantId' } r' =
      PiiRegistry.listEntries { tenantId := tenantId' } r ++ if tenantId' = tenantId then [entry] else [] :=
  listEntries_set (Option.or_eq_none_iff.mp h.absent).1 h.entries h.owner

lemma FirstDeclared.undeclaredIn (h : FirstDeclared tenantId resourceId entry r r') (ht : Plain tenantId)
    (ht' : Plain tenantId') (hne : tenantId' ≠ tenantId) (resourceId' : String) :
    undeclaredIn r' tenantId' resourceId' = Coverage.undeclaredIn r tenantId' resourceId' := by
  have hown : keyOf (some tenantId') resourceId' ≠ keyOf (some tenantId) resourceId := fun hk =>
    hne (Audit.keyOf_plain_inj ht' ht hk).1
  have hshared : keyOf none resourceId' ≠ keyOf (some tenantId) resourceId := Audit.keyOf_none_ne ht
  rw [Coverage.undeclaredIn, Coverage.undeclaredIn, getEntry, getEntry, h.entries, OrderedMap.get?_set_ne hown,
    OrderedMap.get?_set_ne hshared]

lemma firstDeclared (h : Told p replies s) (ht : Plain (tenantOf header))
    (hr : Runs (RouteOp.exec getTime) (fun _ _ _ => True)
      ((Request.upsert header body resourceIdFromPath now actorEmail).reply service getTime).run s (.ok reply) t)
    (hsent : sent [200, 201] (.ok reply) = true)
    (hnew : ¬Known p replies (tenantOf header) ((requestInput body resourceIdFromPath).resourceId.getD "")) :
    FirstDeclared (tenantOf header) ((requestInput body resourceIdFromPath).resourceId.getD "")
      (manualEntry (requestInput body resourceIdFromPath) (tenantOf header) (Encoding.IsoDate.toISOString now) none actorEmail)
      s.registry t.registry := by
  have habsent := (undeclaredIn_iff h ht).mpr hnew
  rw [undeclaredIn, Option.isNone_iff_eq_none] at habsent
  simp only [Request.reply] at hr
  have hwritten := must_declare _ _ hr
  dsimp only at hwritten
  rcases hwritten with ⟨-, hstatus⟩ | ⟨-, -, hset⟩
  · simp [sent, hstatus] at hsent
  · rw [habsent] at hset
    exact ⟨habsent, rfl, rfl, hset⟩

lemma computeCoverage_perm : (computeCoverage items).items.Perm items := List.mergeSort_perm _ _

lemma toCoverageItems_concat {evaluate : PiiRegistryEntry → PolicyStatus} {entries : List PiiRegistryEntry} :
    toCoverageItems (entries ++ [entry]) evaluate findings = (entries ++ [entry]).map (declaredItem evaluate) ++
      ((findings.filter fun finding => finding.resourceId ∉ entries.map PiiRegistryEntry.resourceId).filter
        fun finding => finding.resourceId ≠ entry.resourceId).map undeclaredItem := by
  rw [toCoverageItems, List.filter_filter]
  congr 2
  refine List.filter_congr fun finding _ => ?_
  simp only [List.map_append, List.map_cons, List.map_nil, List.mem_append, List.mem_singleton, not_or, Bool.decide_and,
    Bool.and_comm]

/-- The items of the others stay, and the findings of the resource make way for the item of its entry. -/
lemma items_concat {entries : List PiiRegistryEntry} (hnew : entry.resourceId ∉ entries.map PiiRegistryEntry.resourceId) :
    (toCoverageItems (entries ++ [entry]) evaluatedStatus findings).Perm (declaredItem evaluatedStatus entry ::
      (toCoverageItems entries evaluatedStatus findings).filter fun item => item.resourceId ≠ entry.resourceId) := by
  have hdeclared : (entries.map (declaredItem evaluatedStatus)).filter (fun item => item.resourceId ≠ entry.resourceId) =
      entries.map (declaredItem evaluatedStatus) := by
    refine List.filter_eq_self.mpr fun item hm => ?_
    obtain ⟨entry', hentry', rfl⟩ := List.mem_map.mp hm
    exact decide_eq_true fun hsame => hnew (hsame ▸ List.mem_map_of_mem hentry')
  have hfound : ((findings.filter fun finding => finding.resourceId ∉ entries.map PiiRegistryEntry.resourceId).map
      undeclaredItem).filter (fun item => item.resourceId ≠ entry.resourceId) =
      ((findings.filter fun finding => finding.resourceId ∉ entries.map PiiRegistryEntry.resourceId).filter
        fun finding => finding.resourceId ≠ entry.resourceId).map undeclaredItem := List.filter_map
  rw [toCoverageItems_concat, toCoverageItems, List.filter_append, hdeclared, hfound, List.map_append, List.append_assoc]
  exact List.perm_middle

/-- What the pages of the other tenants show stays as it is. -/
def Unnoticed (nowIso : String) (r r' : Registry) (header : Option String) : Prop :=
  (∀ source, coverage header nowIso r' source = coverage header nowIso r source) ∧
    policy header nowIso r' = policy header nowIso r ∧
    ∀ source contentSource, discovery header nowIso r' source contentSource = discovery header nowIso r source contentSource

end Declarations

end ChameleonVault.Coverage
