import ChameleonVault.Deletion.Certificates
import ChameleonVault.PiiRegistry.Executable

/-! The two ways to write down the redaction strategies of a declaration, and what reads them. -/

namespace ChameleonVault.PiiRegistry

open KeyRegistry (Date truthy truthy_eq_some_iff)
open Deletion (SourceRedactionStrategy JanitorWipe resolveSourceRedactionStrategies hasSourceRedactionStrategy
  listManualEntries planRedaction planEncryptedCopyDeletion redactionQuery encryptedCopyQuery sourceRedactionExceptions
  shadowCopyItem)

section Entries

/-- The same declaration but for how its strategies are written. -/
structure Reencoded (first second : PiiRegistryEntry) : Prop where
  rest : { first with sourceRedactionStrategy := none, sourceRedactionStrategies := none } =
    { second with sourceRedactionStrategy := none, sourceRedactionStrategies := none }
  strategies (strategy : SourceRedactionStrategy) : strategy ∈ resolveSourceRedactionStrategies first.resource ↔
    strategy ∈ resolveSourceRedactionStrategies second.resource

def unmarked (resource : Deletion.PiiRegistryEntry) : Deletion.PiiRegistryEntry :=
  { resource with sourceRedactionStrategy := none, sourceRedactionStrategies := none }

/-- What plans, maintains and certifies by the strategies tells no difference. -/
structure TreatedAlike (first second : PiiRegistryEntry) : Prop where
  planRedaction (tenantId : String) (before after : List Deletion.PiiRegistryEntry) :
    (planRedaction tenantId (before ++ first.resource :: after)).map unmarked =
      (planRedaction tenantId (before ++ second.resource :: after)).map unmarked
  redactionQuery (userId tenantId : String) :
    redactionQuery first.resource userId tenantId = redactionQuery second.resource userId tenantId
  planEncryptedCopyDeletion (tenantId : String) (before after : List Deletion.PiiRegistryEntry) :
    (planEncryptedCopyDeletion tenantId (before ++ first.resource :: after)).map unmarked =
      (planEncryptedCopyDeletion tenantId (before ++ second.resource :: after)).map unmarked
  encryptedCopyQuery (userId tenantId : String) :
    encryptedCopyQuery first.resource userId tenantId = encryptedCopyQuery second.resource userId tenantId
  ensureShadowCopy (service : SourceRedactionService) : ensureShadowCopy service first = ensureShadowCopy service second
  ensureEncryptedCopyTable : ensureEncryptedCopyTable first = ensureEncryptedCopyTable second
  exceptions (now : Date) (wipes : List JanitorWipe) (before after : List Deletion.PiiRegistryEntry) :
    sourceRedactionExceptions now wipes (before ++ first.resource :: after) =
      sourceRedactionExceptions now wipes (before ++ second.resource :: after)

variable {first second : PiiRegistryEntry}

namespace Reencoded

lemma has_eq (h : Reencoded first second) (strategy : SourceRedactionStrategy) :
    hasSourceRedactionStrategy first.resource strategy = hasSourceRedactionStrategy second.resource strategy :=
  decide_eq_decide.mpr (h.strategies strategy)

lemma unmarked_eq (h : Reencoded first second) : unmarked first.resource = unmarked second.resource :=
  congrArg PiiRegistryEntry.resource h.rest

lemma eq_with (h : Reencoded first second) : second = { first with
    sourceRedactionStrategy := second.sourceRedactionStrategy
    sourceRedactionStrategies := second.sourceRedactionStrategies } :=
  congrArg (fun entry : PiiRegistryEntry => { entry with
    sourceRedactionStrategy := second.sourceRedactionStrategy
    sourceRedactionStrategies := second.sourceRedactionStrategies }) h.rest.symm

end Reencoded

lemma filter_map_replace {α β : Type} {P : α → Bool} {f : α → β} {a b : α} (hP : P a = P b) (hf : f a = f b)
    (before after : List α) : ((before ++ a :: after).filter P).map f = ((before ++ b :: after).filter P).map f := by
  rw [List.filter_append, List.filter_append, List.filter_cons, List.filter_cons, hP]
  split
  · rw [List.map_append, List.map_append, List.map_cons, List.map_cons, hf]
  · rfl

lemma plan_replace (h : Reencoded first second) (strategy : SourceRedactionStrategy) (tenantId : String)
    (before after : List Deletion.PiiRegistryEntry) :
    ((listManualEntries tenantId (before ++ first.resource :: after)).filter
      (hasSourceRedactionStrategy · strategy)).map unmarked =
    ((listManualEntries tenantId (before ++ second.resource :: after)).filter
      (hasSourceRedactionStrategy · strategy)).map unmarked := by
  have htenant : first.resource.tenantId = second.resource.tenantId :=
    (congrArg Deletion.PiiRegistryEntry.tenantId h.unmarked_eq :)
  have howner : first.resource.ownerConnector = second.resource.ownerConnector :=
    (congrArg Deletion.PiiRegistryEntry.ownerConnector h.unmarked_eq :)
  rw [listManualEntries, listManualEntries, List.filter_filter, List.filter_filter, List.filter_filter,
    List.filter_filter]
  refine filter_map_replace ?_ h.unmarked_eq before after
  simp only [h.has_eq strategy, htenant, howner]

lemma Reencoded.treatedAlike (h : Reencoded first second) : TreatedAlike first second where
  planRedaction := plan_replace h .redactInPlace
  redactionQuery userId tenantId :=
    (congrArg (fun resource => Deletion.redactionQuery resource userId tenantId) h.unmarked_eq :)
  planEncryptedCopyDeletion := plan_replace h .encryptedCopy
  encryptedCopyQuery userId tenantId :=
    (congrArg (fun resource => Deletion.encryptedCopyQuery resource userId tenantId) h.unmarked_eq :)
  ensureShadowCopy service := by
    have hs := h.has_eq .shadowCopy
    rw [h.eq_with] at hs ⊢
    rw [PiiRegistry.ensureShadowCopy]
    rw [hs]
    rfl
  ensureEncryptedCopyTable := by
    have hs := h.has_eq .encryptedCopy
    rw [h.eq_with] at hs ⊢
    rw [PiiRegistry.ensureEncryptedCopyTable]
    rw [hs]
    rfl
  exceptions now wipes before after := by
    have hitem : shadowCopyItem first.resource = shadowCopyItem second.resource :=
      (congrArg shadowCopyItem h.unmarked_eq :)
    rw [sourceRedactionExceptions, filter_map_replace (h.has_eq .shadowCopy) hitem before after]
    rfl

end Entries

section Inputs

def withoutStrategies (input : PiiRegistryDeclarationInput) : PiiRegistryDeclarationInput :=
  { input with sourceRedactionStrategy := none, sourceRedactionStrategies := none }

/-- Two bodies that differ only in how they write down the same strategies. -/
structure SameStrategies (first second : PiiRegistryDeclarationInput) : Prop where
  rest : withoutStrategies first = withoutStrategies second
  strategies (name : String) : name ∈ requestedSourceRedactionStrategies first ↔
    name ∈ requestedSourceRedactionStrategies second

def inArrayForm (input : PiiRegistryDeclarationInput) : PiiRegistryDeclarationInput :=
  { input with
    sourceRedactionStrategy := none
    sourceRedactionStrategies := some (requestedSourceRedactionStrategies input) }

def legacyAccepted (input : PiiRegistryDeclarationInput) : Bool :=
  isNamedIfSet SOURCE_REDACTION_STRATEGIES input.sourceRedactionStrategy

/-- The old field alone makes the route ask whether the table is a view. -/
def readAsInPlace (input : PiiRegistryDeclarationInput) : Bool :=
  input.sourceRedactionStrategy = some "REDACT_IN_PLACE" && input.system = some "bigquery"

variable {input first second : PiiRegistryDeclarationInput} {strategies : List String} {tenantId nowIso : String}
  {existing : Option PiiRegistryEntry} {actorEmail : Option String}

lemma SameStrategies.symm (h : SameStrategies first second) : SameStrategies second first :=
  ⟨h.rest.symm, fun name => (h.strategies name).symm⟩

lemma strategyErrors_eq_nil_iff :
    strategyErrors strategies = [] ↔ ∀ name ∈ strategies, isNamed SOURCE_REDACTION_ARRAY_STRATEGIES (some name) = true := by
  constructor
  · intro h name hm
    obtain ⟨strategy, hs⟩ := named_of_strategyErrors h hm
    exact List.any_eq_true.mpr ⟨(name, strategy), hs, decide_eq_true rfl⟩
  · intro h
    refine List.flatten_eq_nil_iff.mpr fun errors he => ?_
    obtain ⟨⟨name, index⟩, hm, rfl⟩ := List.mem_map.mp he
    exact check_eq_nil.mpr (h name (List.fst_mem_of_mem_zipIdx hm))

lemma requested_of_array (h : input.sourceRedactionStrategies = some strategies) :
    requestedSourceRedactionStrategies input = strategies := by
  rw [requestedSourceRedactionStrategies, h]

lemma requested_of_legacy (h : input.sourceRedactionStrategies = none) :
    requestedSourceRedactionStrategies input =
      (truthy input.sourceRedactionStrategy).toList.filter fun strategy => strategy ≠ "NONE" := by
  rw [requestedSourceRedactionStrategies, h]
  cases truthy input.sourceRedactionStrategy with
  | none => rfl
  | some strategy =>
    by_cases hs : strategy = "NONE"
    · simp [hs]
    · simp [hs]

lemma strategyErrors_requested (h : legacyAccepted input = true) :
    strategyErrors (requestedSourceRedactionStrategies input) = [] ↔
      strategyErrors (input.sourceRedactionStrategies.getD []) = [] := by
  cases harray : input.sourceRedactionStrategies with
  | some strategies => rw [requested_of_array harray, Option.getD_some]
  | none =>
    refine iff_of_true (strategyErrors_eq_nil_iff.mpr fun name hm => ?_) rfl
    rw [requested_of_legacy harray, List.mem_filter, Option.mem_toList, truthy_eq_some_iff] at hm
    obtain ⟨⟨hname, -⟩, hne⟩ := hm
    rw [legacyAccepted, hname] at h
    simpa [isNamedIfSet, isNamed, SOURCE_REDACTION_STRATEGIES, Ne.symm (of_decide_eq_true hne)] using h

/-- The checks that read a strategy, and those that do not. -/
lemma errors_parts_iff : declarationErrors input tenantId = [] ↔
    declarationErrors (withoutStrategies input) tenantId = [] ∧ legacyAccepted input = true ∧
      strategyErrors (input.sourceRedactionStrategies.getD []) = [] ∧
      (requestedSourceRedactionStrategies input = [] || isNonEmptyString input.userIdColumn) = true := by
  simp only [declarationErrors, List.append_eq_nil_iff, check_eq_nil]
  constructor
  · rintro ⟨⟨⟨⟨⟨⟨⟨⟨⟨⟨⟨⟨⟨htenant, hid⟩, hsystem⟩, hlayer⟩, hvisible⟩, hdeletion⟩, hlegacy⟩, harray⟩, huser⟩, hsame⟩, hpubsub⟩,
      hstatus⟩, hfields⟩, hscan⟩
    exact ⟨⟨⟨⟨⟨⟨⟨⟨⟨⟨⟨⟨⟨⟨htenant, hid⟩, hsystem⟩, hlayer⟩, hvisible⟩, hdeletion⟩, rfl⟩, rfl⟩, rfl⟩, hsame⟩, hpubsub⟩,
      hstatus⟩, hfields⟩, hscan⟩, hlegacy, harray, huser⟩
  · rintro ⟨⟨⟨⟨⟨⟨⟨⟨⟨⟨⟨⟨⟨⟨htenant, hid⟩, hsystem⟩, hlayer⟩, hvisible⟩, hdeletion⟩, -⟩, -⟩, -⟩, hsame⟩, hpubsub⟩,
      hstatus⟩, hfields⟩, hscan⟩, hlegacy, harray, huser⟩
    exact ⟨⟨⟨⟨⟨⟨⟨⟨⟨⟨⟨⟨⟨htenant, hid⟩, hsystem⟩, hlayer⟩, hvisible⟩, hdeletion⟩, hlegacy⟩, harray⟩, huser⟩, hsame⟩, hpubsub⟩,
      hstatus⟩, hfields⟩, hscan⟩

lemma arrayForm_parts_iff : declarationErrors (inArrayForm input) tenantId = [] ↔
    declarationErrors (withoutStrategies input) tenantId = [] ∧
      strategyErrors (requestedSourceRedactionStrategies input) = [] ∧
      (requestedSourceRedactionStrategies input = [] || isNonEmptyString input.userIdColumn) = true := by
  refine errors_parts_iff.trans (and_congr_right fun _ => ?_)
  exact and_iff_right rfl

lemma errors_eq_nil_iff : declarationErrors input tenantId = [] ↔
    declarationErrors (inArrayForm input) tenantId = [] ∧ legacyAccepted input = true := by
  rw [errors_parts_iff, arrayForm_parts_iff]
  constructor
  · rintro ⟨hrest, hlegacy, harray, huser⟩
    exact ⟨⟨hrest, (strategyErrors_requested hlegacy).mpr harray, huser⟩, hlegacy⟩
  · rintro ⟨⟨hrest, harray, huser⟩, hlegacy⟩
    exact ⟨hrest, hlegacy, (strategyErrors_requested hlegacy).mp harray, huser⟩

namespace SameStrategies

variable (h : SameStrategies first second)
include h

lemma arrayForm_iff : declarationErrors (inArrayForm first) tenantId = [] ↔
    declarationErrors (inArrayForm second) tenantId = [] := by
  have hnone : requestedSourceRedactionStrategies first = [] ↔ requestedSourceRedactionStrategies second = [] := by
    simp only [List.eq_nil_iff_forall_not_mem, h.strategies]
  have huser : first.userIdColumn = second.userIdColumn :=
    (congrArg PiiRegistryDeclarationInput.userIdColumn h.rest :)
  simp only [arrayForm_parts_iff, strategyErrors_eq_nil_iff, h.strategies, h.rest, hnone, huser]

lemma reencoded : Reencoded (manualEntry first tenantId nowIso existing actorEmail)
    (manualEntry second tenantId nowIso existing actorEmail) where
  rest := (congrArg (fun input => { manualEntry input tenantId nowIso existing actorEmail with
    sourceRedactionStrategy := none, sourceRedactionStrategies := none }) h.rest :)
  strategies strategy := by
    change strategy ∈ List.filterMap _ _ ↔ strategy ∈ List.filterMap _ _
    simp only [List.mem_filterMap, h.strategies]

end SameStrategies

/-- What the old field of an entry says is what the old field of its body says. -/
lemma legacy_inPlace_iff : ((manualEntry input tenantId nowIso existing actorEmail).sourceRedactionStrategy = some .redactInPlace ∧
    (manualEntry input tenantId nowIso existing actorEmail).system = .bigquery) ↔ readAsInPlace input = true := by
  have hnamed : named SOURCE_REDACTION_STRATEGIES input.sourceRedactionStrategy = some .redactInPlace ↔
      input.sourceRedactionStrategy = some "REDACT_IN_PLACE" := named_eq_some_iff (by decide) (by decide)
  have hstrategy : (manualEntry input tenantId nowIso existing actorEmail).sourceRedactionStrategy = some .redactInPlace ↔
      input.sourceRedactionStrategy = some "REDACT_IN_PLACE" := by
    rw [← hnamed]
    change some _ = some _ ↔ _
    cases named SOURCE_REDACTION_STRATEGIES input.sourceRedactionStrategy <;> simp
  rw [hstrategy, readAsInPlace, Bool.and_eq_true, decide_eq_true_eq, decide_eq_true_eq]
  exact and_congr_right fun _ => named_system_iff

end Inputs

end ChameleonVault.PiiRegistry
