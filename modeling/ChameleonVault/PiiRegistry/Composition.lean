import ChameleonVault.PiiRegistry.Served

/-! The registry's platform slice from the tables the dbt package builds in each warehouse, and what
of the three slices is served once they are composed. -/

namespace ChameleonVault.PiiRegistry

open Collections
open KeyRegistry (truthy)
open Deletion (PiiSystem)

section Tables

def PiiResourceLayer.name : PiiResourceLayer → String
  | .raw => "RAW"
  | .staging => "STAGING"
  | .intermediate => "INTERMEDIATE"
  | .mart => "MART"
  | .saas => "SAAS"
  | .unknown => "UNKNOWN"

/-- A row of the `pii_registry` table; a column that is cast to an enumeration holds a value of it. -/
structure RegistryRow where
  resource_id : String
  model_name : String
  system : Option PiiSystem
  resource_layer : Option PiiResourceLayer
  owner : Option String
  field_name : String
  classification : PiiClassification
  handling : PiiHandling
  confidence : RegistryConfidence
  detection_method : String
  required_in_mart : Bool
  registry_version : String
  deriving DecidableEq

structure LineageRow where
  source_resource_id : String
  field_name : String
  downstream_model : String
  hops : ℕ
  deriving DecidableEq

def RegistryRow.fieldPolicy (row : RegistryRow) : PiiFieldPolicy where
  name := row.field_name
  classification := row.classification
  handling := row.handling
  requiredInMart := row.required_in_mart
  confidence := some row.confidence
  evidence := some ["dbt:detection:" ++ row.detection_method]

/-- The entry of a resource; without a row there is no first one to read. -/
def toEntry (resourceId : String) (rows : List RegistryRow) (lineage : List LineageRow) : Option PiiRegistryEntry :=
  rows.head?.map fun first =>
    let layer := first.resource_layer.getD .unknown
    let isRaw := layer == .raw
    let isSaas := layer == .saas
    let isMart := layer == .mart
    { registryVersion := first.registry_version
      resourceId
      system := first.system.getD .bigquery
      resourceLayer := some layer
      visibility := some (if isRaw then .internal else .customerFacing)
      tenantIdColumn := some "tenant_id"
      userIdColumn := some "user_id"
      piiFields := rows.map RegistryRow.fieldPolicy
      ownerConnector := (truthy first.owner).getD "dbt"
      lineageDestination := resourceId
      deletionStrategy := if isMart then .manualReview else .cryptoShred
      ghostDataScan := if isRaw || isSaas then ⟨false, .disabled, []⟩ else ⟨true, .sampled, ["EMAIL", "PHONE", "NAME"]⟩
      handlingPolicy := layer.name.toLower ++ "_auto_registry"
      evidencePointers := ("dbt:model:" ++ first.model_name) :: lineage.map fun edge =>
        "lineage:used_in=" ++ edge.downstream_model ++ ":" ++ edge.field_name ++ "@" ++ toString edge.hops ++ "hops"
      notes := some "Generated by the chameleon_pii dbt package from warehouse metadata." }

def assemblePiiRegistryEntries (registryRows : List RegistryRow) (lineageRows : List LineageRow) :
    List PiiRegistryEntry :=
  if registryRows = [] then []
  else
    let byResource := OrderedMap.groupBy RegistryRow.resource_id registryRows
    let lineageByResource := OrderedMap.groupBy LineageRow.source_resource_id lineageRows
    byResource.entries.filterMap fun (resourceId, rows) =>
      toEntry resourceId rows ((lineageByResource.get? resourceId).getD [])

structure DbtTables where
  registryRows : List RegistryRow
  lineageRows : List LineageRow

namespace DbtTables

def loadEntries (w : DbtTables) : List PiiRegistryEntry := assemblePiiRegistryEntries w.registryRows w.lineageRows

def Lists (w : DbtTables) (resourceId : String) : Prop := ∃ row ∈ w.registryRows, row.resource_id = resourceId

instance (w : DbtTables) (resourceId : String) : Decidable (w.Lists resourceId) :=
  inferInstanceAs (Decidable (∃ row ∈ w.registryRows, row.resource_id = resourceId))

def describes (w : DbtTables) (resourceId : String) : Option PiiRegistryEntry :=
  toEntry resourceId (w.registryRows.filter fun row => row.resource_id = resourceId)
    (w.lineageRows.filter fun edge => edge.source_resource_id = resourceId)

end DbtTables

variable {w : DbtTables} {row : RegistryRow} {resourceId : String} {entry : PiiRegistryEntry}
  {rows : List RegistryRow} {lineage : List LineageRow}

lemma toEntry_spec (h : toEntry resourceId rows lineage = some entry) :
    entry.resourceId = resourceId ∧ entry.tenantId = none ∧ entry.piiFields = rows.map RegistryRow.fieldPolicy := by
  obtain ⟨first, -, rfl⟩ := Option.map_eq_some_iff.mp h
  exact ⟨rfl, rfl, rfl⟩

lemma key_describes (h : w.describes resourceId = some entry) : entry.key = keyOf none resourceId := by
  obtain ⟨rfl, ht, -⟩ := toEntry_spec h
  rw [PiiRegistryEntry.key, ht]

lemma mem_piiFields_describes (h : w.describes resourceId = some entry) {policy : PiiFieldPolicy} :
    policy ∈ entry.piiFields ↔ ∃ row ∈ w.registryRows, row.resource_id = resourceId ∧ row.fieldPolicy = policy := by
  rw [(toEntry_spec h).2.2]
  simp [and_assoc]

lemma describes_isSome : (w.describes resourceId).isSome = true ↔ w.Lists resourceId := by
  simp [DbtTables.describes, toEntry, DbtTables.Lists]

lemma lineageOf_eq (lineageRows : List LineageRow) (resourceId : String) :
    ((OrderedMap.groupBy LineageRow.source_resource_id lineageRows).get? resourceId).getD [] =
      lineageRows.filter fun edge => edge.source_resource_id = resourceId := by
  rw [OrderedMap.get?_groupBy]
  split
  · rename_i hnil
    exact hnil.symm
  · rfl

lemma mem_loadEntries : entry ∈ w.loadEntries ↔ ∃ resourceId, w.describes resourceId = some entry := by
  rw [DbtTables.loadEntries, assemblePiiRegistryEntries]
  split
  · rename_i hnil
    simp [DbtTables.describes, hnil, toEntry]
  · simp only [List.mem_filterMap, Prod.exists, lineageOf_eq, OrderedMap.mem_groupBy]
    constructor
    · rintro ⟨resourceId, rows, ⟨-, rfl⟩, hentry⟩
      exact ⟨resourceId, hentry⟩
    · rintro ⟨resourceId, hentry⟩
      refine ⟨resourceId, _, ⟨fun hnil => ?_, rfl⟩, hentry⟩
      simp [DbtTables.describes, toEntry, hnil] at hentry

end Tables

section Layers

variable {entries later : List PiiRegistryEntry} {entry : PiiRegistryEntry} {key resourceId resourceId' : String}

lemma keyOf_none_inj (h : keyOf none resourceId = keyOf none resourceId') : resourceId = resourceId' :=
  (String.append_right_inj _).mp h

lemma get?_serve : (serve entries).get? key = (entries.filter fun entry => entry.key = key).getLast? := by
  rw [serve, OrderedMap.get?_ofList]
  simp [List.filter_map, Function.comp_def]

lemma get?_serve_append : (serve (entries ++ later)).get? key =
    ((serve later).get? key).or ((serve entries).get? key) := by
  rw [serve, List.map_append, OrderedMap.get?_ofList_append]
  rfl

lemma mem_of_get?_serve (h : (serve entries).get? key = some entry) : entry ∈ entries ∧ entry.key = key := by
  obtain ⟨entry', hm, he⟩ := List.mem_map.mp (OrderedMap.mem_of_get?_ofList h)
  obtain ⟨rfl, rfl⟩ := Prod.mk.inj he
  exact ⟨hm, rfl⟩

lemma get?_serve_eq_none : (serve entries).get? key = none ↔ ∀ entry ∈ entries, entry.key ≠ key := by
  simp [serve, OrderedMap.get?_ofList_eq_none]

lemma get?_serve_of_unique (hm : entry ∈ entries) (hu : ∀ other ∈ entries, other.key = entry.key → other = entry) :
    (serve entries).get? entry.key = some entry := by
  refine OrderedMap.get?_ofList_of_unique (List.mem_map.mpr ⟨entry, hm, rfl⟩) fun other ho => ?_
  obtain ⟨other', hm', he⟩ := List.mem_map.mp ho
  obtain ⟨hkey, rfl⟩ := Prod.mk.inj he
  exact hu other' hm' hkey

end Layers

section Composition

def dbtEntries (warehouses : List DbtTables) : List PiiRegistryEntry := warehouses.flatMap DbtTables.loadEntries

def composed (connectors : List PiiRegistryEntry) (warehouses : List DbtTables) (manuals : List PiiRegistryEntry)
    (documents : AList (fun _ : String => PiiRegistryEntry)) : Registry :=
  ⟨serve (composePiiRegistry connectors (dbtEntries warehouses) manuals), documents⟩

def untouched (connectors : List PiiRegistryEntry) : List PiiRegistryEntry :=
  connectors.filter fun entry => entry.ownerConnector ≠ "dbt"

/-- The last of the warehouses whose tables list the resource. -/
def lastListing (warehouses : List DbtTables) (resourceId : String) : Option DbtTables :=
  warehouses.reverse.find? (·.Lists resourceId)

/-- The connector slice gives up what dbt owns as soon as there is a row in a warehouse. -/
def keptConnectors (connectors : List PiiRegistryEntry) (warehouses : List DbtTables) : List PiiRegistryEntry :=
  if ∀ w ∈ warehouses, w.registryRows = [] then connectors else untouched connectors

structure LosesNothing (connectors : List PiiRegistryEntry) (warehouses : List DbtTables)
    (manuals : List PiiRegistryEntry) (s : Registry) : Prop where
  connector : ∀ entry ∈ connectors, entry.ownerConnector ≠ "dbt" → entry ∈ listEntries {} s
  row : ∀ w ∈ warehouses, ∀ row ∈ w.registryRows, ∃ entry ∈ listEntries {} s,
    entry.resourceId = row.resource_id ∧ row.fieldPolicy ∈ entry.piiFields
  manual : ∀ entry ∈ manuals, getEntry entry.resourceId entry.tenantId s = some entry

/-- No entry stands in the place of another that has to be served, and no row only in an earlier warehouse. -/
structure Apart (connectors : List PiiRegistryEntry) (warehouses : List DbtTables)
    (manuals : List PiiRegistryEntry) : Prop where
  manual : ∀ entry ∈ manuals ++ untouched connectors, ∀ manual ∈ manuals, manual.key = entry.key → manual = entry
  dbt : ∀ entry ∈ untouched connectors, entry ∉ manuals → ∀ w ∈ warehouses, ∀ row ∈ w.registryRows,
    keyOf none row.resource_id = entry.key →
      ∃ w' ∈ lastListing warehouses row.resource_id, w'.describes row.resource_id = some entry
  connector : ∀ entry ∈ untouched connectors, entry ∉ manuals →
    (∀ w ∈ warehouses, ∀ row ∈ w.registryRows, keyOf none row.resource_id ≠ entry.key) →
      ((keptConnectors connectors warehouses).filter fun other => other.key = entry.key).getLast? = some entry
  row : ∀ w ∈ warehouses, ∀ row ∈ w.registryRows,
    (∃ entry ∈ manuals ++ untouched connectors,
      entry.resourceId = row.resource_id ∧ row.fieldPolicy ∈ entry.piiFields) ∨
    (∀ manual ∈ manuals, manual.key ≠ keyOf none row.resource_id) ∧
      ∃ w' ∈ lastListing warehouses row.resource_id, ∃ row' ∈ w'.registryRows,
        row'.resource_id = row.resource_id ∧ row'.fieldPolicy = row.fieldPolicy

variable {connectors manuals : List PiiRegistryEntry} {warehouses : List DbtTables} {w : DbtTables} {row : RegistryRow}
  {documents : AList (fun _ : String => PiiRegistryEntry)} {entry : PiiRegistryEntry} {key resourceId : String}

lemma mem_untouched : entry ∈ untouched connectors ↔ entry ∈ connectors ∧ entry.ownerConnector ≠ "dbt" := by
  simp [untouched]

lemma mem_dbtEntries : entry ∈ dbtEntries warehouses ↔
    ∃ w ∈ warehouses, ∃ resourceId, w.describes resourceId = some entry := by
  simp [dbtEntries, mem_loadEntries]

lemma dbtEntries_eq_nil : dbtEntries warehouses = [] ↔ ∀ w ∈ warehouses, w.registryRows = [] := by
  rw [List.eq_nil_iff_forall_not_mem]
  constructor
  · intro h w hw
    rw [List.eq_nil_iff_forall_not_mem]
    intro row hrow
    obtain ⟨entry, hentry⟩ := Option.isSome_iff_exists.mp (describes_isSome.mpr ⟨row, hrow, rfl⟩)
    exact h entry (mem_dbtEntries.mpr ⟨w, hw, row.resource_id, hentry⟩)
  · intro h entry hentry
    obtain ⟨w, hw, resourceId, hd⟩ := mem_dbtEntries.mp hentry
    obtain ⟨row, hrow, -⟩ := describes_isSome.mp (Option.isSome_iff_exists.mpr ⟨entry, hd⟩)
    rw [h w hw] at hrow
    exact absurd hrow List.not_mem_nil

lemma composePiiRegistry_eq : composePiiRegistry connectors (dbtEntries warehouses) manuals =
    keptConnectors connectors warehouses ++ dbtEntries warehouses ++ manuals := by
  simp only [composePiiRegistry, keptConnectors, ← dbtEntries_eq_nil]
  split
  · rename_i hnil
    rw [hnil, List.append_nil]
  · rfl

lemma get?_serve_loadEntries : (serve w.loadEntries).get? (keyOf none resourceId) = w.describes resourceId := by
  cases hd : w.describes resourceId with
  | some entry =>
    rw [← key_describes hd]
    refine get?_serve_of_unique (mem_loadEntries.mpr ⟨resourceId, hd⟩) fun other hother hkey => ?_
    obtain ⟨resourceId', hd'⟩ := mem_loadEntries.mp hother
    obtain rfl : resourceId' = resourceId := keyOf_none_inj ((key_describes hd').symm.trans (hkey.trans (key_describes hd)))
    exact Option.some.inj (hd'.symm.trans hd)
  | none =>
    refine get?_serve_eq_none.mpr fun other hother hkey => ?_
    obtain ⟨resourceId', hd'⟩ := mem_loadEntries.mp hother
    obtain rfl : resourceId' = resourceId := keyOf_none_inj ((key_describes hd').symm.trans hkey)
    rw [hd] at hd'
    contradiction

lemma get?_dbtEntries_eq_none (h : ∀ w ∈ warehouses, ∀ row ∈ w.registryRows, keyOf none row.resource_id ≠ key) :
    (serve (dbtEntries warehouses)).get? key = none := by
  refine get?_serve_eq_none.mpr fun other hother hkey => ?_
  obtain ⟨w, hw, resourceId, hd⟩ := mem_dbtEntries.mp hother
  obtain ⟨row, hrow, rfl⟩ := describes_isSome.mp (Option.isSome_iff_exists.mpr ⟨other, hd⟩)
  exact h w hw row hrow ((key_describes hd).symm.trans hkey)

/-- A resource is served as the last warehouse that lists it describes it. -/
lemma get?_serve_dbtEntries : (serve (dbtEntries warehouses)).get? (keyOf none resourceId) =
    (lastListing warehouses resourceId).bind (·.describes resourceId) := by
  induction warehouses using List.reverseRecOn with
  | nil => rfl
  | append_singleton warehouses w ih =>
    have hsplit : dbtEntries (warehouses ++ [w]) = dbtEntries warehouses ++ w.loadEntries := by simp [dbtEntries]
    rw [hsplit, get?_serve_append, get?_serve_loadEntries, ih, lastListing, lastListing, List.reverse_concat,
      List.find?_cons]
    by_cases hl : w.Lists resourceId
    · obtain ⟨entry, hentry⟩ := Option.isSome_iff_exists.mp (describes_isSome.mpr hl)
      simp [hl, hentry]
    · have hnone : w.describes resourceId = none := Option.not_isSome_iff_eq_none.mp fun h => hl (describes_isSome.mp h)
      simp [hl, hnone]

lemma lastListing_isSome (hw : w ∈ warehouses) (hrow : row ∈ w.registryRows) :
    ∃ w' entry, lastListing warehouses row.resource_id = some w' ∧ w'.describes row.resource_id = some entry := by
  have hsome : (lastListing warehouses row.resource_id).isSome = true := by
    rw [lastListing, List.find?_isSome]
    exact ⟨w, List.mem_reverse.mpr hw, decide_eq_true ⟨row, hrow, rfl⟩⟩
  obtain ⟨w', hw'⟩ := Option.isSome_iff_exists.mp hsome
  have hl := List.find?_some hw'
  obtain ⟨entry, hentry⟩ := Option.isSome_iff_exists.mp (describes_isSome.mpr (of_decide_eq_true hl))
  exact ⟨w', entry, hw', hentry⟩

lemma get?_composed : (composed connectors warehouses manuals documents).entries.get? key =
    ((serve manuals).get? key).or (((serve (dbtEntries warehouses)).get? key).or
      ((serve (keptConnectors connectors warehouses)).get? key)) := by
  rw [composed, composePiiRegistry_eq, get?_serve_append, get?_serve_append]

lemma mem_listEntries : entry ∈ listEntries {} (composed connectors warehouses manuals documents) ↔
    (composed connectors warehouses manuals documents).entries.get? entry.key = some entry := by
  have hkeyed : KeyedEntries (composed connectors warehouses manuals documents).entries := keyed_serve _
  rw [← hkeyed.mem_values]
  simp [listEntries, visibleTo, truthy]

/-- A declaration is looked up under its own key, which is never free. -/
lemma getEntry_manual (hm : entry ∈ manuals) (ht : entry.tenantId.isSome = true) :
    getEntry entry.resourceId entry.tenantId (composed connectors warehouses manuals documents) = some entry ↔
      (composed connectors warehouses manuals documents).entries.get? entry.key = some entry := by
  obtain ⟨tenantId, ht⟩ := Option.isSome_iff_exists.mp ht
  have hkey : entry.key = keyOf (some tenantId) entry.resourceId := by rw [PiiRegistryEntry.key, ht]
  simp only [ht, getEntry, ← hkey]
  cases hget : (composed connectors warehouses manuals documents).entries.get? entry.key with
  | some found => rfl
  | none =>
    rw [get?_composed, Option.or_eq_none_iff] at hget
    exact absurd rfl (get?_serve_eq_none.mp hget.1 entry hm)

lemma get?_composed_of_manual (hm : entry ∈ manuals) (hu : ∀ manual ∈ manuals, manual.key = entry.key → manual = entry) :
    (composed connectors warehouses manuals documents).entries.get? entry.key = some entry := by
  rw [get?_composed, get?_serve_of_unique hm hu, Option.some_or]

lemma keptConnectors_of_row (hw : w ∈ warehouses) (hrow : row ∈ w.registryRows) :
    keptConnectors connectors warehouses = untouched connectors := by
  rw [keptConnectors, if_neg]
  intro hnil
  rw [hnil w hw] at hrow
  exact List.not_mem_nil hrow

section Lossless

variable (h : LosesNothing connectors warehouses manuals (composed connectors warehouses manuals documents))
  (ht : ∀ manual ∈ manuals, manual.tenantId.isSome = true)
include h ht

lemma served_of_losesNothing (hm : entry ∈ manuals ++ untouched connectors) :
    (composed connectors warehouses manuals documents).entries.get? entry.key = some entry := by
  rcases List.mem_append.mp hm with hm | hm
  · exact (getEntry_manual hm (ht entry hm)).mp (h.manual entry hm)
  · obtain ⟨hm, howner⟩ := mem_untouched.mp hm
    exact mem_listEntries.mp (h.connector entry hm howner)

lemma manual_eq_of_served (hs : (composed connectors warehouses manuals documents).entries.get? entry.key = some entry)
    {manual : PiiRegistryEntry} (hm : manual ∈ manuals) (hkey : manual.key = entry.key) : manual = entry := by
  have hmanual := served_of_losesNothing h ht (List.mem_append_left _ hm)
  rw [hkey, hs] at hmanual
  exact (Option.some.inj hmanual).symm

lemma get?_platform_of_losesNothing
    (hs : (composed connectors warehouses manuals documents).entries.get? entry.key = some entry) (hn : entry ∉ manuals) :
    ((serve (dbtEntries warehouses)).get? entry.key).or ((serve (keptConnectors connectors warehouses)).get? entry.key) =
      some entry := by
  have hnone : (serve manuals).get? entry.key = none :=
    get?_serve_eq_none.mpr fun manual hm hkey => hn (manual_eq_of_served h ht hs hm hkey ▸ hm)
  rw [get?_composed, hnone, Option.none_or] at hs
  exact hs

lemma apart_of_losesNothing : Apart connectors warehouses manuals where
  manual entry hentry manual hm hkey := manual_eq_of_served h ht (served_of_losesNothing h ht hentry) hm hkey
  dbt entry hentry hn w hw row hrow hkey := by
    have hs := get?_platform_of_losesNothing h ht (served_of_losesNothing h ht (List.mem_append_right _ hentry)) hn
    obtain ⟨w', described, hlast, hd⟩ := lastListing_isSome hw hrow
    rw [← hkey, get?_serve_dbtEntries, hlast, Option.bind_some, hd, Option.some_or] at hs
    exact ⟨w', hlast, hd.trans hs⟩
  connector entry hentry hn hrows := by
    have hs := get?_platform_of_losesNothing h ht (served_of_losesNothing h ht (List.mem_append_right _ hentry)) hn
    rw [get?_dbtEntries_eq_none hrows, Option.none_or, get?_serve] at hs
    exact hs
  row w hw row hrow := by
    obtain ⟨entry, hlisted, hid, hfield⟩ := h.row w hw row hrow
    have hs := mem_listEntries.mp hlisted
    by_cases hn : entry ∈ manuals
    · exact .inl ⟨entry, List.mem_append_left _ hn, hid, hfield⟩
    have hp := get?_platform_of_losesNothing h ht hs hn
    rcases Option.or_eq_some_iff.mp hp with hdbt | ⟨-, hconnector⟩
    · obtain ⟨w₀, -, resourceId, hd₀⟩ := mem_dbtEntries.mp (mem_of_get?_serve hdbt).1
      obtain rfl : resourceId = row.resource_id := (toEntry_spec hd₀).1.symm.trans hid
      obtain ⟨w', described, hlast, hd⟩ := lastListing_isSome hw hrow
      rw [key_describes hd₀, get?_serve_dbtEntries, hlast, Option.bind_some, hd] at hdbt
      obtain rfl := Option.some.inj hdbt
      refine .inr ⟨fun manual hm hkey => ?_, w', hlast, (mem_piiFields_describes hd).mp hfield⟩
      exact hn (manual_eq_of_served h ht hs hm (hkey.trans (key_describes hd).symm) ▸ hm)
    · have hkept := (mem_of_get?_serve hconnector).1
      rw [keptConnectors_of_row hw hrow] at hkept
      exact .inl ⟨entry, List.mem_append_right _ hkept, hid, hfield⟩

end Lossless

lemma Apart.served (h : Apart connectors warehouses manuals) (hm : entry ∈ manuals ++ untouched connectors) :
    (composed connectors warehouses manuals documents).entries.get? entry.key = some entry := by
  by_cases hmanual : entry ∈ manuals
  · exact get?_composed_of_manual hmanual (h.manual entry hm)
  have hentry : entry ∈ untouched connectors := (List.mem_append.mp hm).resolve_left hmanual
  have hnone : (serve manuals).get? entry.key = none :=
    get?_serve_eq_none.mpr fun manual hm' hkey => hmanual (h.manual entry hm manual hm' hkey ▸ hm')
  rw [get?_composed, hnone, Option.none_or]
  by_cases hrows : ∀ w ∈ warehouses, ∀ row ∈ w.registryRows, keyOf none row.resource_id ≠ entry.key
  · rw [get?_dbtEntries_eq_none hrows, Option.none_or, get?_serve]
    exact h.connector entry hentry hmanual hrows
  · push Not at hrows
    obtain ⟨w, hw, row, hrow, hkey⟩ := hrows
    obtain ⟨w', hlast, hd⟩ := h.dbt entry hentry hmanual w hw row hrow hkey
    rw [← hkey, get?_serve_dbtEntries, Option.mem_def.mp hlast, Option.bind_some, hd, Option.some_or]

lemma losesNothing_of_apart (h : Apart connectors warehouses manuals)
    (ht : ∀ manual ∈ manuals, manual.tenantId.isSome = true) :
    LosesNothing connectors warehouses manuals (composed connectors warehouses manuals documents) where
  connector entry hm howner := mem_listEntries.mpr (h.served (List.mem_append_right _ (mem_untouched.mpr ⟨hm, howner⟩)))
  manual entry hm := (getEntry_manual hm (ht entry hm)).mpr (h.served (List.mem_append_left _ hm))
  row w hw row hrow := by
    rcases h.row w hw row hrow with ⟨entry, hm, hid, hfield⟩ | ⟨hfree, w', hlast, hfield⟩
    · exact ⟨entry, mem_listEntries.mpr (h.served hm), hid, hfield⟩
    · obtain ⟨w'', described, hlast', hd⟩ := lastListing_isSome hw hrow
      obtain rfl := Option.some.inj (hlast'.symm.trans hlast)
      refine ⟨described, mem_listEntries.mpr ?_, (toEntry_spec hd).1, (mem_piiFields_describes hd).mpr hfield⟩
      rw [key_describes hd, get?_composed, get?_serve_eq_none.mpr hfree, Option.none_or, get?_serve_dbtEntries,
        hlast', Option.bind_some, hd, Option.some_or]

theorem composed_loses_nothing_iff (ht : ∀ manual ∈ manuals, manual.tenantId.isSome = true) :
    LosesNothing connectors warehouses manuals (composed connectors warehouses manuals documents) ↔
      Apart connectors warehouses manuals :=
  ⟨fun h => apart_of_losesNothing h ht, fun h => losesNothing_of_apart h ht⟩

def stgUsersRows : List RegistryRow :=
  [{ resource_id := "bigquery:your-gcp-project-id.chameleon_dev.stg_users", model_name := "stg_users"
     system := some .bigquery, resource_layer := some .staging, owner := some "dbt", field_name := "email_token"
     classification := .directIdentifier, handling := .tokenize, confidence := .declared
     detection_method := "DECLARED", required_in_mart := false, registry_version := "2026-06-30" },
   { resource_id := "bigquery:your-gcp-project-id.chameleon_dev.stg_users", model_name := "stg_users"
     system := some .bigquery, resource_layer := some .staging, owner := some "dbt", field_name := "user_id"
     classification := .systemIdentifier, handling := .hashSurrogate, confidence := .declared
     detection_method := "DECLARED", required_in_mart := false, registry_version := "2026-06-30" }]

def stgUsers : DbtTables where
  registryRows := stgUsersRows
  lineageRows := [⟨"bigquery:your-gcp-project-id.chameleon_dev.stg_users", "user_id", "int_customer_activity", 1⟩]

def hubspotContacts : PiiRegistryEntry where
  registryVersion := "2026-06-19"
  resourceId := "hubspot:contacts"
  system := .hubspot
  ownerConnector := "hubspot"
  lineageDestination := "hubspot"
  deletionStrategy := .externalWipe
  ghostDataScan := ⟨false, .disabled, []⟩
  handlingPolicy := "saas_external_wipe"
  evidencePointers := []
  piiFields := [{ name := "email_hash", classification := .directIdentifier, handling := .tokenize
                  requiredInMart := false }]

def staleStgUsers : PiiRegistryEntry :=
  { hubspotContacts with
    resourceId := "bigquery:chameleon_dev.stg_users", system := .bigquery, ownerConnector := "dbt"
    handlingPolicy := "stale_hardcoded" }

def acmeContacts : PiiRegistryEntry :=
  { hubspotContacts with tenantId := some "acme", ownerConnector := "manual" }

theorem composed_loses_nothing_federated : LosesNothing [hubspotContacts, staleStgUsers] [stgUsers] [acmeContacts]
    (composed [hubspotContacts, staleStgUsers] [stgUsers] [acmeContacts] ∅) :=
  (composed_loses_nothing_iff (by decide)).mpr
    { manual := by decide
      dbt := by decide
      connector := by decide
      row := by decide }

def rawUsers : PiiRegistryEntry where
  registryVersion := "2026-06-21"
  resourceId := "bigquery:your-gcp-project-id.chameleon_prod.raw_users"
  system := .bigquery
  resourceLayer := some .raw
  visibility := some .internal
  tenantIdColumn := some "tenant_id"
  userIdColumn := some "user_id"
  ownerConnector := "pipelines"
  lineageDestination := "bigquery:chameleon_prod.raw_users"
  deletionStrategy := .cryptoShred
  handlingPolicy := "raw_encrypted_ingestion"
  evidencePointers := ["lineage:source=key-vault,destination=bigquery:chameleon_prod.raw_users"]
  piiFields :=
    [{ name := "email_token", classification := .directIdentifier, handling := .tokenize, requiredInMart := false
       evidence := some ["pipeline:ingestion:tokenized-email"], confidence := some .declared },
     { name := "encrypted_pii", classification := .sensitive, handling := .encrypt, requiredInMart := false
       evidence := some ["pipeline:ingestion:encrypted-payload"], confidence := some .declared },
     { name := "user_id", classification := .systemIdentifier, handling := .hashSurrogate, requiredInMart := false
       surrogateId := some "user_surrogate_id", confidence := some .declared }]
  ghostDataScan := ⟨false, .disabled, []⟩
  notes := some ("Internal raw landing table for encrypted pipeline ingestion. dbt materializes customer-facing "
    ++ "registry models from this source.")

def rawUsersRow : RegistryRow where
  resource_id := "bigquery:your-gcp-project-id.chameleon_prod.raw_users"
  model_name := "raw_users"
  system := some .bigquery
  resource_layer := some .raw
  owner := some "pipelines"
  field_name := "encrypted_pii"
  classification := .sensitive
  handling := .encrypt
  confidence := .declared
  detection_method := "DECLARED"
  required_in_mart := false
  registry_version := "2026-06-30"

theorem composed_replaces_raw_users :
    ¬LosesNothing [rawUsers] [⟨[rawUsersRow], []⟩] [] (composed [rawUsers] [⟨[rawUsersRow], []⟩] [] ∅) := by
  intro h
  have hlisted := h.connector rawUsers (by decide) (by decide)
  exact absurd hlisted (by decide)

end Composition

end ChameleonVault.PiiRegistry
