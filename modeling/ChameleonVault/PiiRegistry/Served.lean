import ChameleonVault.PiiRegistry.Service

/-! What the registry serves: each entry under its own key, platform entries of no tenant and
declared ones of theirs. -/

namespace ChameleonVault.PiiRegistry

open Collections Concurrency

variable {getTime : String → Option ℤ} {s s' : Registry} {tenantId resourceId : String} {entry : PiiRegistryEntry}

def Registry.served (s : Registry) : List PiiRegistryEntry := s.entries.values

section Keys

/-- Every entry is served under its own key. -/
def KeyedEntries (entries : OrderedMap String PiiRegistryEntry) : Prop :=
  ∀ key entry, entries.get? key = some entry → entry.key = key

lemma keyed_serve (entries : List PiiRegistryEntry) : KeyedEntries (serve entries) := by
  intro key entry h
  obtain ⟨entry', -, he⟩ := List.mem_map.mp (OrderedMap.mem_of_get?_ofList h)
  obtain ⟨rfl, rfl⟩ := Prod.mk.inj he
  rfl

lemma KeyedEntries.mem_values {entries : OrderedMap String PiiRegistryEntry} (h : KeyedEntries entries) :
    entry ∈ entries.values ↔ entries.get? entry.key = some entry := by
  rw [OrderedMap.mem_values]
  constructor
  · rintro ⟨key, hk⟩
    rw [h key entry hk, hk]
  · exact fun hk => ⟨_, hk⟩

@[simp] lemma key_write (mark : SyncMark) (stored : String) (entry : PiiRegistryEntry) :
    (mark.write stored entry).key = entry.key := by
  cases mark <;> rfl

@[simp] lemma tenantId_write (mark : SyncMark) (stored : String) (entry : PiiRegistryEntry) :
    (mark.write stored entry).tenantId = entry.tenantId := by
  cases mark <;> rfl

@[simp] lemma isManual_write (mark : SyncMark) (stored : String) (entry : PiiRegistryEntry) :
    (mark.write stored entry).isManual = entry.isManual := by
  cases mark <;> rfl

@[simp] lemma resourceId_write (mark : SyncMark) (stored : String) (entry : PiiRegistryEntry) :
    (mark.write stored entry).resourceId = entry.resourceId := by
  cases mark <;> rfl

/-- The configuration lists what no tenant declared and all of them share. -/
def Platform.Wide (p : Platform) : Prop :=
  ∀ entry ∈ p.connectorEntries ++ p.dbtEntries, entry.isManual = false ∧ entry.tenantId = none

/-- Every stored document is a tenant's declaration under its own id. -/
def Declared (documents : AList (fun _ : String => PiiRegistryEntry)) : Prop :=
  ∀ id entry, documents.lookup id = some entry →
    entry.isManual = true ∧ ∃ tenantId, tenantId ≠ "" ∧ entry.tenantId = some tenantId ∧
      id = docId tenantId entry.resourceId

lemma declared_empty : Declared ∅ := fun _ _ h => nomatch h

lemma Declared.insert {documents : AList (fun _ : String => PiiRegistryEntry)} (h : Declared documents)
    (hm : entry.isManual = true) (ht : entry.tenantId = some tenantId) (hne : tenantId ≠ "") :
    Declared (documents.insert (docId tenantId entry.resourceId) entry) := by
  intro id document hl
  by_cases hid : id = docId tenantId entry.resourceId
  · rw [hid, AList.lookup_insert] at hl
    obtain rfl := Option.some.inj hl
    exact ⟨hm, tenantId, hne, ht, hid⟩
  · rw [AList.lookup_insert_ne hid] at hl
    exact h id document hl

lemma Declared.erase {documents : AList (fun _ : String => PiiRegistryEntry)} (h : Declared documents) (id : String) :
    Declared (documents.erase id) := by
  intro id' document hl
  by_cases hid : id' = id
  · rw [hid, AList.lookup_erase] at hl
    contradiction
  · rw [AList.lookup_erase_ne hid] at hl
    exact h id' document hl

lemma Declared.of_lookup {documents : AList (fun _ : String => PiiRegistryEntry)} (h : Declared documents)
    (hl : documents.lookup (docId tenantId resourceId) = some entry) :
    entry.isManual = true ∧ tenantId ≠ "" ∧ entry.tenantId = some tenantId ∧ entry.resourceId = resourceId := by
  obtain ⟨hmanual, tenantId', hne, ht, hid⟩ := h _ entry hl
  obtain ⟨rfl, rfl⟩ := docId_inj hid
  exact ⟨hmanual, hne, ht, rfl⟩

lemma Declared.key_of_lookup {documents : AList (fun _ : String => PiiRegistryEntry)} (h : Declared documents)
    (hl : documents.lookup (docId tenantId resourceId) = some entry) : entry.key = keyOf (some tenantId) resourceId := by
  obtain ⟨-, -, ht, rfl⟩ := h.of_lookup hl
  rw [PiiRegistryEntry.key, ht]

lemma mem_loadAll {documents : AList (fun _ : String => PiiRegistryEntry)} (h : entry ∈ loadAll documents) :
    ∃ id, documents.lookup id = some entry ∧ isTopLevel id = true := by
  obtain ⟨⟨id, entry'⟩, hm, rfl⟩ := List.mem_map.mp h
  obtain ⟨hm, hid⟩ := List.mem_filter.mp hm
  exact ⟨id, AList.mem_lookup_iff.mpr hm, hid⟩

lemma mem_composePiiRegistry {connectorEntries dbtEntries manualEntries : List PiiRegistryEntry}
    (h : entry ∈ composePiiRegistry connectorEntries dbtEntries manualEntries) :
    entry ∈ connectorEntries ++ dbtEntries ∨ entry ∈ manualEntries := by
  rw [composePiiRegistry] at h
  split at h
  · rcases List.mem_append.mp h with h | h
    · exact .inl (List.mem_append_left _ h)
    · exact .inr h
  · rcases List.mem_append.mp h with h | h
    · rcases List.mem_append.mp h with h | h
      · exact .inl (List.mem_append_left _ (List.mem_filter.mp h).1)
      · exact .inl (List.mem_append_right _ h)
    · exact .inr h

lemma mem_serve {entries : List PiiRegistryEntry} (h : entry ∈ (serve entries).values) : entry ∈ entries := by
  obtain ⟨key, hk⟩ := OrderedMap.mem_values.mp h
  obtain ⟨entry', hm, he⟩ := List.mem_map.mp (OrderedMap.mem_of_get?_ofList hk)
  exact (Prod.mk.inj he).2 ▸ hm

lemma mem_startup {p : Platform} {documents : AList (fun _ : String => PiiRegistryEntry)}
    (h : entry ∈ (p.startup documents).values) :
    entry ∈ p.connectorEntries ++ p.dbtEntries ∨ ∃ id, documents.lookup id = some entry ∧ isTopLevel id = true :=
  (mem_composePiiRegistry (mem_serve h)).imp_right mem_loadAll

end Keys

section Writes

def Op.subject : Op → Option (String × String)
  | .getEntry tenantId resourceId => some (tenantId, resourceId)
  | .setEntry tenantId resourceId _ _ => some (tenantId, resourceId)
  | .deleteEntry tenantId resourceId => some (tenantId, resourceId)
  | _ => none

def Op.tenant : Op → String
  | .getEntry tenantId _ => tenantId
  | .setEntry tenantId _ _ _ => tenantId
  | .deleteEntry tenantId _ => tenantId
  | .upsert tenantId _ => tenantId
  | .delete tenantId _ => tenantId
  | .advance _ tenantId _ _ => tenantId

lemma KeyedEntries.setEntry (h : KeyedEntries s.entries) (hk : entry.key = keyOf (some tenantId) resourceId) :
    KeyedEntries (s.setEntry tenantId resourceId entry).entries := by
  intro key entry' he
  simp only [Registry.setEntry, OrderedMap.get?_set] at he
  split at he
  · rename_i hkey
    rw [hkey, ← Option.some.inj he, hk]
  · exact h key entry' he

lemma KeyedEntries.deleteEntry (h : KeyedEntries s.entries) :
    KeyedEntries (s.deleteEntry tenantId resourceId).entries := by
  intro key entry' he
  by_cases hkey : key = keyOf (some tenantId) resourceId
  · rw [Registry.deleteEntry, hkey, OrderedMap.get?_erase_self] at he
    contradiction
  · rw [Registry.deleteEntry, OrderedMap.get?_erase_ne hkey] at he
    exact h key entry' he

lemma mem_setEntry {written : PiiRegistryEntry} (h : entry ∈ (s.setEntry tenantId resourceId written).served) :
    entry = written ∨ entry ∈ s.served := by
  obtain ⟨key, hk⟩ := OrderedMap.mem_values.mp h
  rw [Registry.setEntry, OrderedMap.get?_set] at hk
  split at hk
  · exact .inl (Option.some.inj hk).symm
  · exact .inr (OrderedMap.mem_values.mpr ⟨key, hk⟩)

lemma mem_deleteEntry (h : entry ∈ (s.deleteEntry tenantId resourceId).served) : entry ∈ s.served := by
  obtain ⟨key, hk⟩ := OrderedMap.mem_values.mp h
  by_cases hkey : key = keyOf (some tenantId) resourceId
  · rw [Registry.deleteEntry, hkey, OrderedMap.get?_erase_self] at hk
    contradiction
  · rw [Registry.deleteEntry, OrderedMap.get?_erase_ne hkey] at hk
    exact OrderedMap.mem_values.mpr ⟨key, hk⟩

lemma exec_entries {op : Op} {outcome : Outcome} {reply : Except RegistryError op.Res}
    (h : op.exec getTime outcome s = some (reply, s')) (hn : op.subject = none) : s'.entries = s.entries := by
  cases op
  case upsert tenantId entry =>
    rw [exec_upsert] at h
    rcases runStore_cases h with ⟨r, hr, -⟩ | ⟨rfl, -⟩
    · obtain ⟨-, rfl⟩ := Prod.mk.inj (Except.ok.inj hr)
      rfl
    · rfl
  case delete tenantId resourceId =>
    rw [exec_delete] at h
    rcases runStore_cases h with ⟨r, hr, -⟩ | ⟨rfl, -⟩
    · obtain ⟨-, rfl⟩ := Prod.mk.inj (Except.ok.inj hr)
      rfl
    · rfl
  case advance mark tenantId resourceId candidateIso =>
    rw [exec_advance] at h
    rcases runStore_cases h with ⟨stored, hr, -⟩ | ⟨rfl, -⟩
    · obtain ⟨document, -, ⟨-, -, rfl⟩ | ⟨-, -, rfl⟩⟩ := advance_cases hr <;> rfl
    · rfl
  all_goals contradiction

lemma exec_documents {op : Op} {outcome : Outcome} {reply : Except RegistryError op.Res} {id : String}
    (h : op.exec getTime outcome s = some (reply, s')) (hid : ∀ resourceId, id ≠ docId op.tenant resourceId) :
    s'.documents.lookup id = s.documents.lookup id := by
  cases op
  case upsert tenantId entry =>
    rw [exec_upsert] at h
    rcases runStore_cases h with ⟨r, hr, -⟩ | ⟨rfl, -⟩
    · obtain ⟨-, rfl⟩ := Prod.mk.inj (Except.ok.inj hr)
      exact AList.lookup_insert_ne (hid _)
    · rfl
  case delete tenantId resourceId =>
    rw [exec_delete] at h
    rcases runStore_cases h with ⟨r, hr, -⟩ | ⟨rfl, -⟩
    · obtain ⟨-, rfl⟩ := Prod.mk.inj (Except.ok.inj hr)
      exact AList.lookup_erase_ne (hid _)
    · rfl
  case advance mark tenantId resourceId candidateIso =>
    rw [exec_advance] at h
    rcases runStore_cases h with ⟨stored, hr, -⟩ | ⟨rfl, -⟩
    · obtain ⟨document, -, ⟨-, -, rfl⟩ | ⟨-, -, rfl⟩⟩ := advance_cases hr
      · rfl
      · exact AList.lookup_insert_ne (hid _)
    · rfl
  all_goals
    obtain rfl := (Prod.mk.inj (Option.some.inj h)).2
    rfl

end Writes

end ChameleonVault.PiiRegistry
