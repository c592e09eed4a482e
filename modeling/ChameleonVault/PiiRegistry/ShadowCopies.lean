import ChameleonVault.PiiRegistry.Confinement
import ChameleonVault.PiiRegistry.Served
import ChameleonVault.PiiRegistry.Warehouse

/-! Which deidentified view belongs to which declaration, over any requests one after another. -/

namespace ChameleonVault.PiiRegistry

open Collections Concurrency
open Deletion (TableRef parseBigQueryResourceId hasSourceRedactionStrategy bind_ok_iff)

section Ownership

def shadowed (entry : PiiRegistryEntry) : Bool := hasSourceRedactionStrategy entry.resource .shadowCopy

def droppedPath (entry : PiiRegistryEntry) : Option TableRef :=
  match dropShadowCopyIfExists entry with
  | .ok (some table) => some (shadowPath table)
  | _ => none

def shadowOf (entry : PiiRegistryEntry) (view : ShadowView) : Resident :=
  ⟨.view view.viewSql, some ⟨entry.owner, .shadowCopy⟩⟩

def ServedAs (s : World) (entry : PiiRegistryEntry) : Prop :=
  entry.isManual = true ∧ s.registry.entries.get? entry.key = some entry

/-- The deidentified views are those of the served declarations that are to have one. -/
structure Maintained (service : SourceRedactionService) (s : World) : Prop where
  live (entry : PiiRegistryEntry) : ServedAs s entry → shadowed entry = true → ∃ view,
    ensureShadowCopy service entry = .ok (some view) ∧
      s.warehouse.lookup (shadowPath view.source) = some (shadowOf entry view)
  only (path : TableRef) (relation : Relation) (owner : Owner) :
    s.warehouse.lookup path = some ⟨relation, some ⟨owner, .shadowCopy⟩⟩ →
      ∃ entry, ServedAs s entry ∧ shadowed entry = true ∧ entry.owner = owner ∧ droppedPath entry = some path

/-- What the tenant's declarations did not bring about is as it was. -/
def Untouched (tenantId : String) (s t : World) : Prop :=
  ∀ path resident, s.warehouse.lookup path = some resident →
    (∀ maker ∈ resident.maker, maker.owner.tenantId ≠ tenantId) → t.warehouse.lookup path = some resident

/-- The entry can be given its views, the paths that this drops and replaces are its own, and the
declaration that it is served instead of leaves no view behind. -/
structure Maintainable (service : SourceRedactionService) (s : World) (entry : PiiRegistryEntry) : Prop where
  checked : shadowed entry = true → ∃ view, ensureShadowCopy service entry = .ok (some view)
  dropped : ∀ path ∈ droppedPath entry, ∀ resident ∈ s.warehouse.lookup path,
    resident.maker = some ⟨entry.owner, .shadowCopy⟩
  existing : ∀ existing ∈ s.registry.entries.get? entry.key, existing.isManual = true → shadowed existing = true →
    existing.owner = entry.owner ∧ entry.system = .bigquery
  replaced (copy : EncryptedCopyTable) : ensureEncryptedCopyTable entry = .ok (some copy) →
    (∀ resident ∈ s.warehouse.lookup (encryptedCopyRawPath copy.source), resident.relation = .table) →
    ∀ resident ∈ s.warehouse.lookup (encryptedCopyViewPath copy.source), resident.relation ≠ .table →
      resident.maker = some ⟨entry.owner, .encryptedCopy⟩

def Removable (s : World) (tenantId resourceId : String) : Prop :=
  ∀ existing ∈ s.registry.entries.get? (keyOf (some tenantId) resourceId), existing.isManual = true →
    (shadowed existing = true → existing.owner = ⟨tenantId, resourceId⟩) ∧
      ∀ path ∈ droppedPath existing, ∀ resident ∈ s.warehouse.lookup path,
        resident.maker = some ⟨existing.owner, .shadowCopy⟩

def kept (service : SourceRedactionService) (s : World) : RouteOp → Answer → Prop
  | .registry (.upsert _ entry), answer => answer = .store .done → Maintainable service s entry
  | .registry (.delete tenantId resourceId), answer => answer = .store .done → Removable s tenantId resourceId
  | _, _ => True

end Ownership

section Paths

variable {service : SourceRedactionService} {entry entry' : PiiRegistryEntry} {view : ShadowView} {table table' : TableRef}
  {path : TableRef} {suffix : String}

lemma beside_ne {suffix' : String} (h : suffix ≠ suffix') : beside table suffix ≠ beside table suffix' := by
  intro he
  have hlist := congrArg String.toList (TableRef.mk.inj he).2.2
  rw [String.toList_append, String.toList_append] at hlist
  exact h (String.toList_inj.mp (List.append_cancel_left hlist))

lemma dropShadowCopyIfExists_iff : dropShadowCopyIfExists entry = .ok (some table) ↔
    entry.system = .bigquery ∧ parseBigQueryResourceId entry.resourceId = .ok table := by
  unfold dropShadowCopyIfExists
  split
  · rename_i hsystem
    exact ⟨fun h => (nomatch Except.ok.inj h), fun h => absurd h.1 hsystem⟩
  · rename_i hsystem
    refine bind_ok_iff.trans ⟨?_, fun h => ⟨table, h.2, rfl⟩⟩
    rintro ⟨table', hparse, h⟩
    obtain rfl := Option.some.inj (Except.ok.inj h)
    exact ⟨not_not.mp hsystem, hparse⟩

lemma droppedPath_iff : droppedPath entry = some path ↔ entry.system = .bigquery ∧
    ∃ table, parseBigQueryResourceId entry.resourceId = .ok table ∧ path = shadowPath table := by
  unfold droppedPath
  constructor
  · intro h
    split at h
    · rename_i table hdrop
      obtain ⟨hsystem, hparse⟩ := dropShadowCopyIfExists_iff.mp hdrop
      exact ⟨hsystem, table, hparse, (Option.some.inj h).symm⟩
    · cases h
  · rintro ⟨hsystem, table, hparse, rfl⟩
    rw [dropShadowCopyIfExists_iff.mpr ⟨hsystem, hparse⟩]

lemma droppedPath_of_view (h : ensureShadowCopy service entry = .ok (some view)) :
    shadowed entry = true ∧ droppedPath entry = some (shadowPath view.source) := by
  obtain ⟨hselected, piiVault, batchDecryptFunctionRef, hvault, href⟩ := ensureShadowCopy_some h
  obtain ⟨hsystem, -, userIdColumn, tenantId, source, -, -, -, hsource, rfl⟩ :=
    (ensureShadowCopy_ok_iff hvault href hselected).mp h
  exact ⟨hselected, droppedPath_iff.mpr ⟨hsystem, source, hsource, rfl⟩⟩

end Paths

section Invariant

variable {service : SourceRedactionService} {s t : World} {entry entry' existing : PiiRegistryEntry} {w w' w'' : Warehouse}
  {maker : Maker} {tenantId resourceId : String}

structure Sound (service : SourceRedactionService) (s : World) : Prop where
  keyed : KeyedEntries s.registry.entries
  declared (entry : PiiRegistryEntry) : ServedAs s entry → ∃ tenantId, entry.tenantId = some tenantId
  maintained : Maintained service s

def shadowResident (service : SourceRedactionService) (entry : PiiRegistryEntry) : Option Resident :=
  match ensureShadowCopy service entry with
  | .ok (some view) => some (shadowOf entry view)
  | _ => none

def Reshaped (path : Option TableRef) (new : Option Resident) (w w' : Warehouse) : Prop :=
  ∀ p, w'.lookup p = if path = some p then new else w.lookup p

/-- Only what the maker made is different, or new. -/
def Extended (maker : Maker) (w w' : Warehouse) : Prop :=
  ∀ p, w'.lookup p = w.lookup p ∨ (∀ resident ∈ w.lookup p, resident.maker = some maker) ∧
    ∀ resident ∈ w'.lookup p, resident.maker = some maker

lemma Extended.refl : Extended maker w w := fun _ => .inl rfl

lemma Extended.trans (h : Extended maker w w') (h' : Extended maker w' w'') : Extended maker w w'' := by
  intro p
  rcases h p with heq | ⟨hbefore, hafter⟩
  · rcases h' p with heq' | ⟨hbefore', hafter'⟩
    · exact .inl (heq'.trans heq)
    · exact .inr ⟨heq ▸ hbefore', hafter'⟩
  · rcases h' p with heq' | ⟨-, hafter'⟩
    · exact .inr ⟨hbefore, heq' ▸ hafter⟩
    · exact .inr ⟨hbefore, hafter'⟩

lemma Extended.lookup_iff {resident : Resident} {p : TableRef} (h : Extended maker w w') (hne : resident.maker ≠ some maker) :
    w'.lookup p = some resident ↔ w.lookup p = some resident := by
  rcases h p with heq | ⟨hbefore, hafter⟩
  · rw [heq]
  · exact iff_of_false (fun hl => hne (hafter resident hl)) fun hl => hne (hbefore resident hl)

lemma shadowResident_some {resident : Resident} (h : shadowResident service entry = some resident) : ∃ view,
    ensureShadowCopy service entry = .ok (some view) ∧ resident = shadowOf entry view := by
  unfold shadowResident at h
  split at h
  · rename_i view hview
    exact ⟨view, hview, (Option.some.inj h).symm⟩
  · cases h

lemma key_eq_of_owner (hd : ∃ tenantId, entry.tenantId = some tenantId) (hd' : ∃ tenantId, entry'.tenantId = some tenantId)
    (h : entry.owner = entry'.owner) : entry.key = entry'.key := by
  obtain ⟨tenantId, ht⟩ := hd
  obtain ⟨tenantId', ht'⟩ := hd'
  obtain ⟨htenant, hresource⟩ := Owner.mk.inj h
  rw [ht, ht'] at htenant
  rw [PiiRegistryEntry.key, PiiRegistryEntry.key, ht, ht', hresource]
  exact congrArg (fun tenantId => keyOf (some tenantId) entry'.resourceId) htenant

lemma Sound.unique (h : Sound service s) (hs : ServedAs s entry) (hs' : ServedAs s entry')
    (howner : entry.owner = entry'.owner) : entry = entry' := by
  have hkey := key_eq_of_owner (h.declared entry hs) (h.declared entry' hs') howner
  exact Option.some.inj (hs.2.symm.trans (hkey ▸ hs'.2))

lemma servedAs_set {e : PiiRegistryEntry} (hmanual : entry.isManual = true)
    (hentries : t.registry.entries = s.registry.entries.set entry.key entry) :
    ServedAs t e ↔ e = entry ∨ e.key ≠ entry.key ∧ ServedAs s e := by
  rw [ServedAs, ServedAs, hentries]
  by_cases hkey : e.key = entry.key
  · rw [hkey, OrderedMap.get?_set_self]
    constructor
    · rintro ⟨-, he⟩
      exact .inl (Option.some.inj he).symm
    · rintro (rfl | ⟨hne, -⟩)
      · exact ⟨hmanual, rfl⟩
      · exact absurd rfl hne
  · rw [OrderedMap.get?_set_ne hkey]
    constructor
    · exact fun hs => .inr ⟨hkey, hs⟩
    · rintro (rfl | ⟨-, hs⟩)
      · exact absurd rfl hkey
      · exact hs

lemma servedAs_erase {e : PiiRegistryEntry} (hentries : t.registry.entries = s.registry.entries.erase existing.key) :
    ServedAs t e ↔ e.key ≠ existing.key ∧ ServedAs s e := by
  rw [ServedAs, ServedAs, hentries]
  by_cases he : e.key = existing.key
  · rw [he, OrderedMap.get?_erase_self]
    exact iff_of_false (fun hs => nomatch hs.2) fun hs => hs.1 rfl
  · rw [OrderedMap.get?_erase_ne he]
    exact (and_iff_right he).symm

lemma Sound.upsert (h : Sound service s) (hm : Maintainable service s entry) (hmanual : entry.isManual = true)
    (htenant : entry.tenantId = some tenantId) (hentries : t.registry.entries = s.registry.entries.set entry.key entry)
    (hr : Reshaped (droppedPath entry) (shadowResident service entry) s.warehouse w)
    (he : Extended ⟨entry.owner, .encryptedCopy⟩ w t.warehouse) : Sound service t ∧ Untouched tenantId s t := by
  have howner : entry.owner.tenantId = tenantId := by rw [PiiRegistryEntry.owner, htenant, Option.getD_some]
  have hserved (e : PiiRegistryEntry) : ServedAs t e ↔ e = entry ∨ e.key ≠ entry.key ∧ ServedAs s e :=
    servedAs_set hmanual hentries
  have hself : ServedAs t entry := (hserved entry).mpr (.inl rfl)
  have hshadow {p : TableRef} {relation : Relation} {owner : Owner} :
      t.warehouse.lookup p = some ⟨relation, some ⟨owner, .shadowCopy⟩⟩ ↔
        w.lookup p = some ⟨relation, some ⟨owner, .shadowCopy⟩⟩ := he.lookup_iff nofun
  have hdeclared (e : PiiRegistryEntry) (hs : ServedAs t e) : ∃ tenantId, e.tenantId = some tenantId := by
    rcases (hserved e).mp hs with rfl | ⟨-, hs⟩
    · exact ⟨tenantId, htenant⟩
    · exact h.declared e hs
  refine ⟨⟨?_, hdeclared, ?_, ?_⟩, ?_⟩
  · intro key e hget
    rw [hentries, OrderedMap.get?_set] at hget
    split at hget
    · rename_i hkey
      rw [← Option.some.inj hget, hkey]
    · exact h.keyed key e hget
  · intro e hs hshadowed
    rcases (hserved e).mp hs with rfl | ⟨hkey, hs'⟩
    · obtain ⟨view, hview⟩ := hm.checked hshadowed
      refine ⟨view, hview, hshadow.mpr ?_⟩
      rw [hr, if_pos (droppedPath_of_view hview).2, shadowResident, hview]
      rfl
    · obtain ⟨view, hview, hlookup⟩ := h.maintained.live e hs' hshadowed
      refine ⟨view, hview, hshadow.mpr ?_⟩
      rw [hr, if_neg, hlookup]
      · rfl
      · intro hpath
        have hmaker := hm.dropped _ hpath _ hlookup
        have hsame : e.owner = entry.owner := (Maker.mk.inj (Option.some.inj hmaker)).1
        exact hkey (key_eq_of_owner (hdeclared e hs) (hdeclared entry hself) hsame)
  · intro p relation owner hlookup
    rw [hshadow, hr] at hlookup
    split at hlookup
    · rename_i hpath
      obtain ⟨view, hview, hresident⟩ := shadowResident_some hlookup
      have hmaker := Option.some.inj (Resident.mk.inj hresident).2
      exact ⟨entry, hself, (droppedPath_of_view hview).1, (Maker.mk.inj hmaker).1.symm, hpath⟩
    · rename_i hpath
      obtain ⟨e, hs, hshadowed, hsame, hdropped⟩ := h.maintained.only p relation owner hlookup
      by_cases hkey : e.key = entry.key
      · obtain ⟨howner', hsystem⟩ := hm.existing e (hkey ▸ hs.2) hs.1 hshadowed
        obtain ⟨-, table, hparse, rfl⟩ := droppedPath_iff.mp hdropped
        have hresource : e.resourceId = entry.resourceId := (Owner.mk.inj howner').2
        exact absurd (droppedPath_iff.mpr ⟨hsystem, table, hresource ▸ hparse, rfl⟩) hpath
      · exact ⟨e, (hserved e).mpr (.inr ⟨hkey, hs⟩), hshadowed, hsame, hdropped⟩
  · intro p resident hlookup hmakers
    have hother {purpose : Purpose} : resident.maker ≠ some ⟨entry.owner, purpose⟩ :=
      fun hmaker => hmakers _ hmaker howner
    refine (he.lookup_iff hother).mpr ?_
    rw [hr, if_neg, hlookup]
    exact fun hpath => hother (hm.dropped p hpath resident hlookup)

lemma Sound.remove (h : Sound service s) (hm : Removable s tenantId resourceId)
    (hget : s.registry.entries.get? (keyOf (some tenantId) resourceId) = some existing) (hmanual : existing.isManual = true)
    (hentries : t.registry.entries = s.registry.entries.erase (keyOf (some tenantId) resourceId))
    (hr : Reshaped (droppedPath existing) none s.warehouse t.warehouse) : Sound service t ∧ Untouched tenantId s t := by
  have hkey : existing.key = keyOf (some tenantId) resourceId := h.keyed _ _ hget
  have hserved (e : PiiRegistryEntry) : ServedAs t e ↔ e.key ≠ existing.key ∧ ServedAs s e :=
    servedAs_erase (hkey ▸ hentries)
  have hself : ServedAs s existing := ⟨hmanual, hkey ▸ hget⟩
  obtain ⟨howner, hdropped⟩ := hm existing hget hmanual
  refine ⟨⟨?_, ?_, ?_, ?_⟩, ?_⟩
  · intro key e he
    rw [hentries] at he
    by_cases hne : key = keyOf (some tenantId) resourceId
    · rw [hne, OrderedMap.get?_erase_self] at he
      cases he
    · rw [OrderedMap.get?_erase_ne hne] at he
      exact h.keyed key e he
  · intro e hs
    exact h.declared e ((hserved e).mp hs).2
  · intro e hs hshadowed
    obtain ⟨hne, hs⟩ := (hserved e).mp hs
    obtain ⟨view, hview, hlookup⟩ := h.maintained.live e hs hshadowed
    refine ⟨view, hview, ?_⟩
    rw [hr, if_neg, hlookup]
    intro hpath
    have hsame := (Maker.mk.inj (Option.some.inj (hdropped _ hpath _ hlookup))).1
    exact hne (congrArg PiiRegistryEntry.key (h.unique hs hself hsame))
  · intro p relation owner hlookup
    rw [hr] at hlookup
    split at hlookup
    · cases hlookup
    · rename_i hpath
      obtain ⟨e, hs, hshadowed, hsame, hdropped'⟩ := h.maintained.only p relation owner hlookup
      refine ⟨e, (hserved e).mpr ⟨fun hkey' => hpath ?_, hs⟩, hshadowed, hsame, hdropped'⟩
      have he : some e = some existing := by rw [← hs.2, hkey', hself.2]
      rw [← Option.some.inj he, hdropped']
  · intro p resident hlookup hmakers
    rw [hr, if_neg, hlookup]
    intro hpath
    have hmaker := hdropped p hpath resident hlookup
    obtain ⟨relation, maker⟩ := resident
    obtain rfl : maker = some ⟨existing.owner, .shadowCopy⟩ := hmaker
    obtain ⟨e, hs, hshadowed, hsame, -⟩ := h.maintained.only p relation existing.owner hlookup
    obtain rfl := h.unique hs hself hsame
    exact hmakers _ rfl (congrArg Owner.tenantId (howner hshadowed))

end Invariant

end ChameleonVault.PiiRegistry
