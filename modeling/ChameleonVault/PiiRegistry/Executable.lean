import ChameleonVault.PiiRegistry.Executors

/-! Which accepted declarations their executors can execute. -/

namespace ChameleonVault.PiiRegistry

open KeyRegistry (truthy truthy_eq_some_iff)
open Deletion (TableRef SourceRedactionStrategy isSafeIdentifier parseBigQueryResourceId redactionQuery
  redactionQuery_foreign redactionQuery_ok_iff encryptedCopyQuery encryptedCopyQuery_ok_iff
  hasSourceRedactionStrategy planRedaction)

section Names

lemma named_eq_some_iff {α : Type} {names : List (String × α)} {name : String} {value : α} {o : Option String}
    (hl : names.lookup name = some value) (hu : ∀ entry ∈ names, entry.2 = value → entry.1 = name) :
    named names o = some value ↔ o = some name := by
  constructor
  · intro h
    obtain ⟨name', rfl, hl'⟩ := Option.bind_eq_some_iff.mp h
    obtain ⟨before, after, rfl, -⟩ := List.lookup_eq_some_iff.mp hl'
    exact congrArg some (hu (name', value) (by simp) rfl)
  · rintro rfl
    exact hl

lemma named_system_iff {o : Option String} :
    (named SYSTEMS o).getD .external = .bigquery ↔ o = some "bigquery" := by
  have h : named SYSTEMS o = some .bigquery ↔ o = some "bigquery" := named_eq_some_iff (by decide) (by decide)
  rw [← h]
  cases named SYSTEMS o <;> simp

lemma named_handling_iff {o : Option String} :
    (named HANDLINGS o).getD .manualReview = .encrypt ↔ o = some "ENCRYPT" := by
  have h : named HANDLINGS o = some .encrypt ↔ o = some "ENCRYPT" := named_eq_some_iff (by decide) (by decide)
  rw [← h]
  cases named HANDLINGS o <;> simp

lemma lookup_array_strategy_iff {name : String} {strategy : SourceRedactionStrategy} {chosen : String}
    (hm : (name, strategy) ∈ SOURCE_REDACTION_ARRAY_STRATEGIES) :
    SOURCE_REDACTION_ARRAY_STRATEGIES.lookup chosen = some strategy ↔ chosen = name := by
  have h : named SOURCE_REDACTION_ARRAY_STRATEGIES (some chosen) = some strategy ↔ some chosen = some name := by
    simp only [SOURCE_REDACTION_ARRAY_STRATEGIES, List.mem_cons, Prod.mk.injEq, List.not_mem_nil, or_false] at hm
    rcases hm with ⟨rfl, rfl⟩ | ⟨rfl, rfl⟩ | ⟨rfl, rfl⟩ <;> exact named_eq_some_iff (by decide) (by decide)
  rwa [Option.some.injEq] at h

end Names

section Accepted

variable {input : PiiRegistryDeclarationInput} {tenantId nowIso : String} {existing : Option PiiRegistryEntry}
  {actorEmail : Option String} {entry : PiiRegistryEntry}

lemma check_eq_nil {holds : Bool} {message : String} : check holds message = [] ↔ holds = true := by
  cases holds <;> simp [check]

lemma accepted (h : buildManualEntry input tenantId nowIso existing actorEmail = .ok entry) :
    declarationErrors input tenantId = [] ∧ entry = manualEntry input tenantId nowIso existing actorEmail := by
  rw [buildManualEntry] at h
  split at h
  · rename_i hnone
    exact ⟨hnone, (Except.ok.inj h).symm⟩
  · cases h

lemma buildManualEntry_accepts (h : declarationErrors input tenantId = []) :
    buildManualEntry input tenantId nowIso existing actorEmail =
      .ok (manualEntry input tenantId nowIso existing actorEmail) := by
  rw [buildManualEntry, h]

structure Checked (input : PiiRegistryDeclarationInput) (tenantId : String) : Prop where
  tenantId : tenantId ≠ ""
  piiFields : input.piiFields.getD [] ≠ []
  strategies (name : String) : name ∈ requestedSourceRedactionStrategies input →
    ∃ strategy, (name, strategy) ∈ SOURCE_REDACTION_ARRAY_STRATEGIES

lemma named_of_strategyErrors {strategies : List String} (h : strategyErrors strategies = []) {name : String}
    (hm : name ∈ strategies) : ∃ strategy, (name, strategy) ∈ SOURCE_REDACTION_ARRAY_STRATEGIES := by
  obtain ⟨index, hindex⟩ := List.mem_iff_getElem?.mp hm
  have hnil := List.flatten_eq_nil_iff.mp h _
    (List.mem_map_of_mem (List.mk_mem_zipIdx_iff_getElem?.mpr hindex))
  obtain ⟨⟨name', strategy⟩, hs, hn⟩ := List.any_eq_true.mp (check_eq_nil.mp hnil)
  exact ⟨strategy, of_decide_eq_true hn ▸ hs⟩

lemma checked_of_errors (h : declarationErrors input tenantId = []) : Checked input tenantId := by
  simp only [declarationErrors, List.append_eq_nil_iff, check_eq_nil] at h
  obtain ⟨⟨⟨⟨⟨⟨⟨⟨⟨⟨⟨⟨⟨htenant, -⟩, -⟩, -⟩, -⟩, -⟩, hsingle⟩, hstrategies⟩, -⟩, -⟩, -⟩, -⟩, hfields⟩, -⟩ := h
  refine ⟨?_, ?_, fun name hm => ?_⟩
  · rintro rfl
    contradiction
  · intro hnil
    cases hf : input.piiFields with
    | none => simp [hf, piiFieldsErrors] at hfields
    | some fields =>
      rw [hf, Option.getD_some] at hnil
      simp [hf, hnil, piiFieldsErrors] at hfields
  · rw [requestedSourceRedactionStrategies] at hm
    split at hm
    · rename_i strategies hs
      rw [hs, Option.getD_some] at hstrategies
      exact named_of_strategyErrors hstrategies hm
    · split at hm
      · rename_i strategy hs
        split at hm
        · contradiction
        · rename_i hne
          obtain rfl := List.mem_singleton.mp hm
          rw [(truthy_eq_some_iff.mp hs).1] at hsingle
          obtain ⟨⟨name', strategy⟩, hmem, hn⟩ := List.any_eq_true.mp hsingle
          obtain rfl := of_decide_eq_true hn
          rcases List.mem_cons.mp hmem with heq | hmem
          · exact absurd (Prod.mk.inj heq).1 hne
          · exact ⟨strategy, hmem⟩
      · contradiction

lemma hasSourceRedactionStrategy_iff {name : String} {strategy : SourceRedactionStrategy}
    (hm : (name, strategy) ∈ SOURCE_REDACTION_ARRAY_STRATEGIES) :
    hasSourceRedactionStrategy (manualEntry input tenantId nowIso existing actorEmail).resource strategy = true ↔
      name ∈ requestedSourceRedactionStrategies input := by
  have hresolve : Deletion.resolveSourceRedactionStrategies
      (manualEntry input tenantId nowIso existing actorEmail).resource =
        (requestedSourceRedactionStrategies input).filterMap
          fun name => SOURCE_REDACTION_ARRAY_STRATEGIES.lookup name := rfl
  rw [hasSourceRedactionStrategy, hresolve, decide_eq_true_eq, List.mem_filterMap]
  constructor
  · rintro ⟨chosen, hc, hl⟩
    exact (lookup_array_strategy_iff hm).mp hl ▸ hc
  · exact fun hn => ⟨name, hn, (lookup_array_strategy_iff hm).mpr rfl⟩

end Accepted

section Executable

variable {input : PiiRegistryDeclarationInput} {tenantId nowIso : String} {existing : Option PiiRegistryEntry}
  {actorEmail : Option String} {entry : PiiRegistryEntry} {service : SourceRedactionService} {piiVault : TableRef}
  {batchDecryptFunctionRef : String}

/-- The database does not tell upper from lower case in the name of a column. -/
def ListedOnce (columns : List String) : Prop := (columns.map String.toLower).Nodup

instance {columns : List String} : Decidable (ListedOnce columns) := inferInstanceAs (Decidable (List.Nodup _))

/-- No executor that the entry's strategies select refuses it, or lists a column twice. -/
structure Executable (service : SourceRedactionService) (entry : PiiRegistryEntry) : Prop where
  redactInPlace : hasSourceRedactionStrategy entry.resource .redactInPlace = true →
    (∀ userId tenantId, ∃ query, redactionQuery entry.resource userId tenantId = .ok query) ∧
      ListedOnce entry.resource.piiFields
  shadowCopy : hasSourceRedactionStrategy entry.resource .shadowCopy = true →
    ∃ view, ensureShadowCopy service entry = .ok (some view) ∧ ∀ columns ∈ view.columnLists, ListedOnce columns
  encryptedCopy : hasSourceRedactionStrategy entry.resource .encryptedCopy = true →
    (∀ userId tenantId, ∃ query, encryptedCopyQuery entry.resource userId tenantId = .ok query) ∧
      ∃ table, ensureEncryptedCopyTable entry = .ok (some table) ∧ ∀ columns ∈ table.columnLists, ListedOnce columns

def fieldNames (input : PiiRegistryDeclarationInput) : List String :=
  (input.piiFields.getD []).map fun field => field.name.getD ""

def encryptedNames (input : PiiRegistryDeclarationInput) : List String :=
  ((input.piiFields.getD []).filter fun field => field.handling = some "ENCRYPT").map fun field => field.name.getD ""

structure Addressable (input : PiiRegistryDeclarationInput) : Prop where
  system : input.system = some "bigquery"
  table : ∃ table, parseBigQueryResourceId (input.resourceId.getD "") = .ok table
  userIdColumn : isSafeIdentifier (input.userIdColumn.getD "") = true
  tenantIdColumn : ∀ column ∈ input.tenantIdColumn, isSafeIdentifier column = true

structure Supported (input : PiiRegistryDeclarationInput) : Prop where
  addressable : requestedSourceRedactionStrategies input ≠ [] → Addressable input
  redactInPlace : "REDACT_IN_PLACE" ∈ requestedSourceRedactionStrategies input →
    (∀ name ∈ fieldNames input, isSafeIdentifier name = true) ∧ ListedOnce (fieldNames input)
  encrypted : "SHADOW_COPY" ∈ requestedSourceRedactionStrategies input ∨
      "ENCRYPTED_COPY" ∈ requestedSourceRedactionStrategies input →
    encryptedNames input ≠ [] ∧ ∀ name ∈ encryptedNames input, isSafeIdentifier name = true
  shadowCopy : "SHADOW_COPY" ∈ requestedSourceRedactionStrategies input →
    ListedOnce ("user_id" :: encryptedNames input)
  encryptedCopy : "ENCRYPTED_COPY" ∈ requestedSourceRedactionStrategies input →
    ListedOnce (encryptedNames input ++ ["synced_at"])

lemma piiFields_manualEntry :
    (manualEntry input tenantId nowIso existing actorEmail).resource.piiFields = fieldNames input := by
  simp [PiiRegistryEntry.resource, manualEntry, fieldNames, piiFieldOf]

lemma encryptedFieldsOf_manualEntry :
    encryptedFieldsOf (manualEntry input tenantId nowIso existing actorEmail) = encryptedNames input := by
  simp [encryptedFieldsOf, manualEntry, encryptedNames, List.filter_map, Function.comp_def, piiFieldOf,
    named_handling_iff]

lemma Addressable.exists_column (h : Addressable input) : ∃ column, truthy input.userIdColumn = some column ∧
    ∀ identifier ∈ column :: input.tenantIdColumn.toList, isSafeIdentifier identifier = true := by
  have hsafe := h.userIdColumn
  cases hc : input.userIdColumn with
  | none =>
    rw [hc] at hsafe
    contradiction
  | some column =>
    rw [hc] at hsafe
    refine ⟨column, truthy_eq_some_iff.mpr ⟨rfl, ?_⟩, fun identifier hm => ?_⟩
    · rintro rfl
      contradiction
    · rcases List.mem_cons.mp hm with rfl | hm
      · exact hsafe
      · exact h.tenantIdColumn identifier (Option.mem_toList.mp hm)

lemma addressable_of_guards {column : String} {table : TableRef}
    (hs : (named SYSTEMS input.system).getD .external = .bigquery)
    (hc : truthy input.userIdColumn = some column)
    (hsafe : ∀ identifier ∈ column :: input.tenantIdColumn.toList, isSafeIdentifier identifier = true)
    (ht : parseBigQueryResourceId (input.resourceId.getD "") = .ok table) : Addressable input where
  system := named_system_iff.mp hs
  table := ⟨table, ht⟩
  userIdColumn := by
    rw [(truthy_eq_some_iff.mp hc).1]
    exact hsafe column List.mem_cons_self
  tenantIdColumn := fun tenantIdColumn hm =>
    hsafe tenantIdColumn (List.mem_cons_of_mem _ (Option.mem_toList.mpr hm))

lemma forall_mem_identifiers {column : String} {columns names : List String} {p : String → Prop} :
    (∀ identifier ∈ column :: (columns ++ names), p identifier) ↔
      (∀ identifier ∈ column :: columns, p identifier) ∧ ∀ name ∈ names, p name := by
  rw [← List.cons_append, List.forall_mem_append]

lemma redactInPlace_iff (hchecked : Checked input tenantId) :
    (∀ userId, ∀ tenant, ∃ query, redactionQuery (manualEntry input tenantId nowIso existing actorEmail).resource
        userId tenant = .ok query) ↔
      Addressable input ∧ ∀ name ∈ fieldNames input, isSafeIdentifier name = true := by
  simp only [redactionQuery_ok_iff, piiFields_manualEntry, forall_mem_identifiers]
  constructor
  · intro h
    obtain ⟨query, hsystem, -, column, table, hcolumn, ⟨hsafe, hfields⟩, htable, -⟩ := h "" ""
    exact ⟨addressable_of_guards hsystem hcolumn hsafe htable, hfields⟩
  · rintro ⟨ha, hfields⟩ userId tenant
    obtain ⟨column, hcolumn, hsafe⟩ := ha.exists_column
    obtain ⟨table, htable⟩ := ha.table
    have hne : fieldNames input ≠ [] := fun hnil => hchecked.piiFields (List.map_eq_nil_iff.mp hnil)
    exact ⟨_, named_system_iff.mpr ha.system, hne, column, table, hcolumn, ⟨hsafe, hfields⟩, htable, rfl⟩

lemma encryptedCopyQuery_iff :
    (∀ userId, ∀ tenant, ∃ query, encryptedCopyQuery (manualEntry input tenantId nowIso existing actorEmail).resource
        userId tenant = .ok query) ↔ Addressable input := by
  simp only [encryptedCopyQuery_ok_iff]
  constructor
  · intro h
    obtain ⟨query, hsystem, column, table, hcolumn, hsafe, htable, -⟩ := h "" ""
    exact addressable_of_guards hsystem hcolumn hsafe htable
  · intro ha userId tenant
    obtain ⟨column, hcolumn, hsafe⟩ := ha.exists_column
    obtain ⟨table, htable⟩ := ha.table
    exact ⟨_, named_system_iff.mpr ha.system, column, table, hcolumn, hsafe, htable, rfl⟩

lemma shadowCopy_iff (hvault : service.piiVault = some piiVault)
    (hdecrypt : truthy service.batchDecryptFunctionRef = some batchDecryptFunctionRef)
    (hchecked : Checked input tenantId) (hselected : hasSourceRedactionStrategy
      (manualEntry input tenantId nowIso existing actorEmail).resource .shadowCopy = true) :
    (∃ view, ensureShadowCopy service (manualEntry input tenantId nowIso existing actorEmail) = .ok (some view) ∧
        ∀ columns ∈ view.columnLists, ListedOnce columns) ↔
      Addressable input ∧ (encryptedNames input ≠ [] ∧ ∀ name ∈ encryptedNames input, isSafeIdentifier name = true) ∧
        ListedOnce ("user_id" :: encryptedNames input) := by
  simp only [ensureShadowCopy_ok_iff hvault hdecrypt hselected, encryptedFieldsOf_manualEntry, forall_mem_identifiers]
  constructor
  · rintro ⟨view, ⟨hsystem, hne, column, tenant, source, hcolumn, -, ⟨hsafe, hfields⟩, htable, rfl⟩, honce⟩
    exact ⟨addressable_of_guards hsystem hcolumn hsafe htable, ⟨hne, hfields⟩, honce _ List.mem_cons_self⟩
  · rintro ⟨ha, ⟨hne, hfields⟩, honce⟩
    obtain ⟨column, hcolumn, hsafe⟩ := ha.exists_column
    obtain ⟨table, htable⟩ := ha.table
    have htenant : truthy (manualEntry input tenantId nowIso existing actorEmail).tenantId = some tenantId :=
      truthy_eq_some_iff.mpr ⟨rfl, hchecked.tenantId⟩
    refine ⟨_, ⟨named_system_iff.mpr ha.system, hne, column, tenantId, table, hcolumn, htenant, ⟨hsafe, hfields⟩,
      htable, rfl⟩, fun columns hm => ?_⟩
    have hfieldsOnce : ListedOnce (encryptedNames input) := (List.nodup_cons.mp honce).2
    simp only [ShadowView.columnLists, List.mem_cons, List.not_mem_nil, or_false] at hm
    rcases hm with rfl | rfl | rfl
    · exact honce
    · exact hfieldsOnce
    · exact hfieldsOnce

lemma encryptedCopy_iff (hselected : hasSourceRedactionStrategy
      (manualEntry input tenantId nowIso existing actorEmail).resource .encryptedCopy = true) :
    (∃ table, ensureEncryptedCopyTable (manualEntry input tenantId nowIso existing actorEmail) = .ok (some table) ∧
        ∀ columns ∈ table.columnLists, ListedOnce columns) ↔
      Addressable input ∧ (encryptedNames input ≠ [] ∧ ∀ name ∈ encryptedNames input, isSafeIdentifier name = true) ∧
        ListedOnce (encryptedNames input ++ ["synced_at"]) := by
  simp only [ensureEncryptedCopyTable_ok_iff hselected, encryptedFieldsOf_manualEntry, forall_mem_identifiers]
  constructor
  · rintro ⟨table, ⟨hsystem, hne, column, source, hcolumn, ⟨hsafe, hfields⟩, htable, rfl⟩, honce⟩
    exact ⟨addressable_of_guards hsystem hcolumn hsafe htable, ⟨hne, hfields⟩,
      honce _ (List.mem_cons_of_mem _ List.mem_cons_self)⟩
  · rintro ⟨ha, ⟨hne, hfields⟩, honce⟩
    obtain ⟨column, hcolumn, hsafe⟩ := ha.exists_column
    obtain ⟨table, htable⟩ := ha.table
    refine ⟨_, ⟨named_system_iff.mpr ha.system, hne, column, table, hcolumn, ⟨hsafe, hfields⟩, htable, rfl⟩,
      fun columns hm => ?_⟩
    have hfieldsOnce : ListedOnce (encryptedNames input) := by
      rw [ListedOnce, List.map_append] at honce
      exact (List.nodup_append.mp honce).1
    simp only [EncryptedCopyTable.columnLists, List.mem_cons, List.not_mem_nil, or_false] at hm
    rcases hm with rfl | rfl | rfl
    · exact hfieldsOnce
    · exact honce
    · exact hfieldsOnce

theorem declaration_executable_iff (hvault : service.piiVault = some piiVault)
    (hdecrypt : truthy service.batchDecryptFunctionRef = some batchDecryptFunctionRef)
    (h : buildManualEntry input tenantId nowIso existing actorEmail = .ok entry) :
    Executable service entry ↔ Supported input := by
  obtain ⟨herrors, rfl⟩ := accepted h
  have hchecked := checked_of_errors herrors
  have hredact : hasSourceRedactionStrategy (manualEntry input tenantId nowIso existing actorEmail).resource
      .redactInPlace = true ↔ "REDACT_IN_PLACE" ∈ requestedSourceRedactionStrategies input :=
    hasSourceRedactionStrategy_iff (by decide)
  have hshadow : hasSourceRedactionStrategy (manualEntry input tenantId nowIso existing actorEmail).resource
      .shadowCopy = true ↔ "SHADOW_COPY" ∈ requestedSourceRedactionStrategies input :=
    hasSourceRedactionStrategy_iff (by decide)
  have hcopy : hasSourceRedactionStrategy (manualEntry input tenantId nowIso existing actorEmail).resource
      .encryptedCopy = true ↔ "ENCRYPTED_COPY" ∈ requestedSourceRedactionStrategies input :=
    hasSourceRedactionStrategy_iff (by decide)
  constructor
  · intro he
    have ofRedact hm := (redactInPlace_iff hchecked).mp (he.redactInPlace (hredact.mpr hm)).1
    have ofShadow hm :=
      (shadowCopy_iff hvault hdecrypt hchecked (hshadow.mpr hm)).mp (he.shadowCopy (hshadow.mpr hm))
    have ofCopy hm := (encryptedCopy_iff (hcopy.mpr hm)).mp (he.encryptedCopy (hcopy.mpr hm)).2
    refine ⟨fun hne => ?_, fun hm => ⟨(ofRedact hm).2, ?_⟩, ?_, fun hm => (ofShadow hm).2.2, fun hm => (ofCopy hm).2.2⟩
    · obtain ⟨name, hm⟩ := List.exists_mem_of_ne_nil _ hne
      obtain ⟨strategy, hs⟩ := hchecked.strategies name hm
      simp only [SOURCE_REDACTION_ARRAY_STRATEGIES, List.mem_cons, Prod.mk.injEq, List.not_mem_nil, or_false] at hs
      rcases hs with ⟨rfl, -⟩ | ⟨rfl, -⟩ | ⟨rfl, -⟩
      · exact (ofRedact hm).1
      · exact (ofShadow hm).1
      · exact (ofCopy hm).1
    · exact piiFields_manualEntry ▸ (he.redactInPlace (hredact.mpr hm)).2
    · rintro (hm | hm)
      · exact (ofShadow hm).2.1
      · exact (ofCopy hm).2.1
  · intro hs
    have addressable {name : String} (hm : name ∈ requestedSourceRedactionStrategies input) : Addressable input :=
      hs.addressable (List.ne_nil_of_mem hm)
    refine ⟨fun hm => ?_, fun hm => ?_, fun hm => ?_⟩
    · have hm := hredact.mp hm
      obtain ⟨hsafe, honce⟩ := hs.redactInPlace hm
      exact ⟨(redactInPlace_iff hchecked).mpr ⟨addressable hm, hsafe⟩, piiFields_manualEntry.symm ▸ honce⟩
    · refine (shadowCopy_iff hvault hdecrypt hchecked hm).mpr ?_
      have hm := hshadow.mp hm
      exact ⟨addressable hm, hs.encrypted (.inl hm), hs.shadowCopy hm⟩
    · refine ⟨encryptedCopyQuery_iff.mpr (addressable (hcopy.mp hm)), (encryptedCopy_iff hm).mpr ?_⟩
      have hm := hcopy.mp hm
      exact ⟨addressable hm, hs.encrypted (.inr hm), hs.encryptedCopy hm⟩

def bucketDeclaration : PiiRegistryDeclarationInput :=
  { usersDeclaration with
    resourceId := some "gcs:exports/users"
    system := some "gcs"
    userIdColumn := some "user_id"
    sourceRedactionStrategies := some ["REDACT_IN_PLACE"] }

theorem accepted_declaration_refused : ∃ entry : PiiRegistryEntry,
    buildManualEntry bucketDeclaration "acme" "2026-01-01T00:00:00.000Z" none none = .ok entry ∧
    entry.resource ∈ planRedaction "acme" [entry.resource] ∧
    (∀ userId tenantId, redactionQuery entry.resource userId tenantId = .error
      "sourceRedactionStrategy REDACT_IN_PLACE is only implemented for bigquery resources, got \"gcs\".") ∧
    ∀ service : SourceRedactionService, ¬ Executable service entry := by
  have hrefused userId tenant : redactionQuery
      (manualEntry bucketDeclaration "acme" "2026-01-01T00:00:00.000Z" none none).resource userId tenant = .error
        "sourceRedactionStrategy REDACT_IN_PLACE is only implemented for bigquery resources, got \"gcs\"." :=
    (redactionQuery_foreign (by decide +kernel)).trans (congrArg Except.error (by decide +kernel))
  refine ⟨_, buildManualEntry_accepts (by decide +kernel), by decide +kernel, hrefused, fun service he => ?_⟩
  obtain ⟨query, hq⟩ := (he.redactInPlace (by decide +kernel)).1 "ada" "acme"
  rw [hrefused] at hq
  cases hq

def protectedDeclaration : PiiRegistryDeclarationInput where
  resourceId := some "bigquery:p.d.users"
  system := some "bigquery"
  userIdColumn := some "id"
  piiFields := some [{ name := some "email", classification := some "CONTACT", handling := some "ENCRYPT" }]
  sourceRedactionStrategies := some ["REDACT_IN_PLACE", "SHADOW_COPY", "ENCRYPTED_COPY"]

def viewsEnabled : SourceRedactionService := ⟨some ⟨"p", "vault", "pii_vault"⟩, some "p.vault.batch_decrypt"⟩

theorem declaration_executable_protected :
    Executable viewsEnabled (manualEntry protectedDeclaration "acme" "2026-01-01T00:00:00.000Z" none none) := by
  have hs : Supported protectedDeclaration :=
    ⟨fun _ => ⟨rfl, ⟨⟨"p", "d", "users"⟩, by decide +kernel⟩, by decide +kernel, by decide +kernel⟩,
      fun _ => by decide +kernel, fun _ => by decide +kernel, fun _ => by decide +kernel, fun _ => by decide +kernel⟩
  exact (declaration_executable_iff rfl (truthy_eq_some_iff.mpr ⟨rfl, by decide⟩)
    (buildManualEntry_accepts (by decide +kernel))).mpr hs

end Executable

end ChameleonVault.PiiRegistry
