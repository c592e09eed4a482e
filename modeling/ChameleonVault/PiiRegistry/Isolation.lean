import ChameleonVault.PiiRegistry.Calls
import ChameleonVault.PiiRegistry.Served
import ChameleonVault.PiiRegistry.Validation

/-! What the tenants of one registry see and change of each other: ownership is in the key under
which an entry is served, put together from the tenant and the resource. -/

namespace ChameleonVault.PiiRegistry

open Collections Concurrency Interleaving Discipline
open KeyRegistry (truthy)

variable {getTime : String → Option ℤ} {s s' : Registry} {log : (registry getTime).Log}
  {a : (registry getTime).Action} {tenantId resourceId : String} {entry : PiiRegistryEntry}

section Isolated

def collides (tenantId resourceId : String) (s : Registry) : Bool :=
  (s.entries.get? (keyOf (some tenantId) resourceId)).any fun entry => entry.tenantId ≠ some tenantId

lemma tenantId_of_not_collides (h : collides tenantId resourceId s = false)
    (hm : s.entries.get? (keyOf (some tenantId) resourceId) = some entry) : entry.tenantId = some tenantId := by
  simpa [collides, hm] using h

def collidesManual (tenantId resourceId : String) (s : Registry) : Bool :=
  (s.entries.get? (keyOf (some tenantId) resourceId)).any fun entry => entry.isManual && entry.tenantId ≠ some tenantId

/-- The memory is written, and a declaration read from it, only where no other scope's entry has the key;
a declaration is stored only under an id that is the path of its document. -/
def isolated (getTime : String → Option ℤ) : (registry getTime).Guard := fun s _ e =>
  match e with
  | .act ⟨_, .getEntry tenantId resourceId, _, _⟩ => collidesManual tenantId resourceId s = false
  | .act ⟨_, .setEntry tenantId resourceId _ _, _, _⟩ => collides tenantId resourceId s = false
  | .act ⟨_, .deleteEntry tenantId resourceId, _, _⟩ => collides tenantId resourceId s = false
  | .act ⟨_, .upsert tenantId entry, _, _⟩ => IsProper (docId tenantId entry.resourceId)
  | .act ⟨_, .delete tenantId resourceId, _, _⟩ => IsProper (docId tenantId resourceId)
  | .act ⟨_, .advance _ tenantId resourceId _, _, _⟩ => IsProper (docId tenantId resourceId)
  | .env e => nomatch e

instance : ∀ s log e, Decidable (isolated getTime s log e) := fun _ _ e =>
  match e with
  | .act ⟨_, .getEntry _ _, _, _⟩ => inferInstanceAs (Decidable (_ = false))
  | .act ⟨_, .setEntry _ _ _ _, _, _⟩ => inferInstanceAs (Decidable (_ = false))
  | .act ⟨_, .deleteEntry _ _, _, _⟩ => inferInstanceAs (Decidable (_ = false))
  | .act ⟨_, .upsert tenantId entry, _, _⟩ => inferInstanceAs (Decidable (IsProper (docId tenantId entry.resourceId)))
  | .act ⟨_, .delete tenantId resourceId, _, _⟩ => inferInstanceAs (Decidable (IsProper (docId tenantId resourceId)))
  | .act ⟨_, .advance _ tenantId resourceId _, _, _⟩ => inferInstanceAs (Decidable (IsProper (docId tenantId resourceId)))
  | .env e => nomatch e

/-- The document that an operation of the store writes. -/
def Op.path : Op → Option DocumentPath
  | .upsert tenantId entry => documentPath (docId tenantId entry.resourceId)
  | .delete tenantId resourceId => documentPath (docId tenantId resourceId)
  | .advance _ tenantId resourceId _ => documentPath (docId tenantId resourceId)
  | _ => none

lemma path_ne {path : DocumentPath} {tenantId' : String} (hg : isolated getTime s log (.act a))
    (hne : tenantId' ≠ a.op.tenant) (hproper : IsProper (docId tenantId' resourceId))
    (hp : documentPath (docId tenantId' resourceId) = some path) : a.op.path ≠ some path := by
  intro ha
  have other {tenantId resourceId' : String} (hop : IsProper (docId tenantId resourceId'))
      (hpath : documentPath (docId tenantId resourceId') = some path) : tenantId' = tenantId :=
    (docId_inj (hproper.inj hop hp hpath)).1
  obtain ⟨t, op, outcome, reply⟩ := a
  cases op with
  | upsert tenantId entry => exact hne (other hg ha)
  | delete tenantId resourceId' => exact hne (other hg ha)
  | advance mark tenantId resourceId' candidateIso => exact hne (other hg ha)
  | _ => contradiction

def Owned (tenantId resourceId : String) (entry : PiiRegistryEntry) : Prop :=
  entry.isManual = true ∧ entry.tenantId = some tenantId ∧ entry.key = keyOf (some tenantId) resourceId

def Pending.Owned : Pending → Prop
  | .upserted tenantId entry => PiiRegistry.Owned tenantId entry.resourceId entry
  | .deleted _ _ => True
  | .advanced _ tenantId resourceId existing _ => PiiRegistry.Owned tenantId resourceId existing

structure Ownership (s : Registry) (log : (registry getTime).Log) : Prop where
  keyed : KeyedEntries s.entries
  platform (entry : PiiRegistryEntry) : entry ∈ s.served → entry.isManual = false → entry.tenantId = none
  read (t : ℕ) (tenantId resourceId : String) (existing : PiiRegistryEntry) :
    (calls.known t log).existing = some (tenantId, resourceId, existing) → existing.isManual = true →
      Owned tenantId resourceId existing
  pending (t : ℕ) (pending : Pending) : (calls.known t log).pending = some pending → pending.Owned

lemma key_ne_of_not_collides (hc : collides tenantId resourceId s = false)
    (hm : s.entries.get? entry.key = some entry) (he : entry.tenantId ≠ some tenantId) :
    entry.key ≠ keyOf (some tenantId) resourceId :=
  fun hkey => he (tenantId_of_not_collides hc (hkey ▸ hm))

lemma served_setEntry (hk : KeyedEntries s.entries) (hc : collides tenantId resourceId s = false)
    {written : PiiRegistryEntry} (hw : Owned tenantId resourceId written) (he : entry.tenantId ≠ some tenantId) :
    entry ∈ (s.setEntry tenantId resourceId written).served ↔ entry ∈ s.served := by
  have hk' := hk.setEntry hw.2.2
  rw [Registry.served, Registry.served, hk'.mem_values, hk.mem_values, Registry.setEntry, OrderedMap.get?_set]
  split
  · rename_i hkey
    constructor
    · intro heq
      rw [← Option.some.inj heq] at he
      exact absurd hw.2.1 he
    · exact fun hm => absurd hkey (key_ne_of_not_collides hc hm he)
  · rfl

lemma served_deleteEntry (hk : KeyedEntries s.entries) (hc : collides tenantId resourceId s = false)
    (he : entry.tenantId ≠ some tenantId) :
    entry ∈ (s.deleteEntry tenantId resourceId).served ↔ entry ∈ s.served := by
  have hk' : KeyedEntries (s.deleteEntry tenantId resourceId).entries := hk.deleteEntry
  rw [Registry.served, Registry.served, hk'.mem_values, hk.mem_values, Registry.deleteEntry]
  by_cases hkey : entry.key = keyOf (some tenantId) resourceId
  · rw [hkey, OrderedMap.get?_erase_self, ← hkey]
    exact ⟨fun h => (by cases h), fun hm => absurd hkey (key_ne_of_not_collides hc hm he)⟩
  · rw [OrderedMap.get?_erase_ne hkey]

lemma Ownership.owned_of_setEntry (h : Ownership s log) {t : ℕ} {written : PiiRegistryEntry} {mark : Option SyncMark}
    (ha : calls.allowed (calls.known t log) (.setEntry tenantId resourceId written mark)) :
    Owned tenantId resourceId written := by
  cases mark with
  | none =>
    obtain ⟨hp, rfl⟩ := ha
    exact h.pending t _ hp
  | some mark =>
    obtain ⟨existing, stored, hp, rfl⟩ := ha
    obtain ⟨hm, ht, hk⟩ := h.pending t _ hp
    exact ⟨by simpa using hm, by simpa using ht, by simpa using hk⟩

lemma Ownership.owned_of_pending (h : Ownership s log) (ha : Allowed calls (fun _ => True) (isolated getTime) s log a s')
    {t : ℕ} {pending : Pending} (hp : (calls.known t (.act a :: log)).pending = some pending) : pending.Owned := by
  have hallowed := ha.allowed
  rcases known_act_cases a t log with hold | ⟨rfl, hnext⟩
  · exact h.pending t pending (hold ▸ hp)
  · rw [hnext] at hp
    obtain ⟨t, op, outcome, reply⟩ := a
    cases op with
    | upsert tenantId entry =>
      cases reply with
      | error err => exact h.pending t pending hp
      | ok r =>
        obtain ⟨-, hmanual, ht, -⟩ := hallowed
        rw [← Option.some.inj hp]
        exact ⟨hmanual, ht, by rw [PiiRegistryEntry.key, ht]⟩
    | delete tenantId resourceId =>
      cases reply with
      | error err => exact h.pending t pending hp
      | ok r =>
        rw [← Option.some.inj hp]
        trivial
    | advance mark tenantId resourceId candidateIso =>
      cases reply with
      | error err => exact h.pending t pending hp
      | ok stored =>
        obtain ⟨-, existing, hread, hmanual⟩ := hallowed
        have hp : (Option.map (fun read : String × String × PiiRegistryEntry =>
          Pending.advanced mark tenantId resourceId read.2.2 stored) (calls.known t log).existing) = some pending := hp
        rw [hread, Option.map_some] at hp
        rw [← Option.some.inj hp]
        exact h.read t tenantId resourceId existing hread hmanual
    | getEntry tenantId resourceId => cases reply <;> exact h.pending t pending hp
    | setEntry tenantId resourceId written mark =>
      cases reply with
      | error err => exact h.pending t pending hp
      | ok r => cases hp
    | deleteEntry tenantId resourceId =>
      cases reply with
      | error err => exact h.pending t pending hp
      | ok r => cases hp

lemma Ownership.owned_of_read (h : Ownership s log) (ha : Allowed calls (fun _ => True) (isolated getTime) s log a s')
    {t : ℕ} (hr : (calls.known t (.act a :: log)).existing = some (tenantId, resourceId, entry))
    (hmanual : entry.isManual = true) : Owned tenantId resourceId entry := by
  have hexec := ha.exec
  have hguard := ha.guard
  rcases known_act_cases a t log with hold | ⟨rfl, hnext⟩
  · exact h.read t tenantId resourceId entry (hold ▸ hr) hmanual
  · rw [hnext] at hr
    obtain ⟨t, op, outcome, reply⟩ := a
    cases op with
    | getEntry tenantId' resourceId' =>
      cases reply with
      | error err => exact h.read t tenantId resourceId entry hr hmanual
      | ok existing =>
        obtain ⟨existing', rfl, he⟩ := Option.map_eq_some_iff.mp hr
        obtain ⟨rfl, rfl, rfl⟩ : tenantId' = tenantId ∧ resourceId' = resourceId ∧ existing' = entry := by
          simpa using he
        have hget : s.entries.get? (keyOf (some tenantId') resourceId') = some existing' :=
          Except.ok.inj (Prod.mk.inj (Option.some.inj hexec)).1
        have hnc : collidesManual tenantId' resourceId' s = false := hguard
        exact ⟨hmanual, by simpa [collidesManual, hget, hmanual] using hnc, h.keyed _ _ hget⟩
    | _ => cases reply <;> exact h.read t tenantId resourceId entry hr hmanual

lemma Ownership.act (h : Ownership s log) (ha : Allowed calls (fun _ => True) (isolated getTime) s log a s') :
    Ownership s' (.act a :: log) := by
  suffices hs : KeyedEntries s'.entries ∧
      ∀ entry ∈ s'.served, entry.isManual = false → entry.tenantId = none from
    ⟨hs.1, hs.2, fun t tenantId resourceId existing => h.owned_of_read ha, fun t pending => h.owned_of_pending ha⟩
  have hallowed := ha.allowed
  have hexec := ha.exec
  have hentries := exec_entries hexec
  obtain ⟨t, op, outcome, reply⟩ := a
  cases op
  case getEntry =>
    obtain rfl := (Prod.mk.inj (Option.some.inj hexec)).2
    exact ⟨h.keyed, h.platform⟩
  case setEntry tenantId resourceId written mark =>
    obtain rfl := (Prod.mk.inj (Option.some.inj hexec)).2
    have howned := h.owned_of_setEntry hallowed
    refine ⟨h.keyed.setEntry howned.2.2, fun entry hm hn => ?_⟩
    rcases mem_setEntry hm with rfl | hm
    · rw [howned.1] at hn
      contradiction
    · exact h.platform entry hm hn
  case deleteEntry tenantId resourceId =>
    obtain rfl := (Prod.mk.inj (Option.some.inj hexec)).2
    exact ⟨h.keyed.deleteEntry, fun entry hm => h.platform entry (mem_deleteEntry hm)⟩
  all_goals
    rw [Registry.served, hentries rfl]
    exact ⟨h.keyed, h.platform⟩

lemma ownership_inductive : Inductive calls (fun _ => True) (isolated getTime) Ownership where
  act h ha := h.act ha
  env := @fun _ _ _ e => nomatch e

lemma Ownership.frame (h : Ownership s log) (ha : Allowed calls (fun _ => True) (isolated getTime) s log a s')
    (ht : a.op.tenant = tenantId) (he : entry.tenantId ≠ some tenantId) : entry ∈ s'.served ↔ entry ∈ s.served := by
  have hallowed := ha.allowed
  have hexec := ha.exec
  have hguard := ha.guard
  have hentries := exec_entries hexec
  obtain ⟨t, op, outcome, reply⟩ := a
  cases op <;> obtain rfl := ht
  case getEntry =>
    obtain rfl := (Prod.mk.inj (Option.some.inj hexec)).2
    rfl
  case setEntry tenantId resourceId written mark =>
    obtain rfl := (Prod.mk.inj (Option.some.inj hexec)).2
    exact served_setEntry h.keyed hguard (h.owned_of_setEntry hallowed) he
  case deleteEntry tenantId resourceId =>
    obtain rfl := (Prod.mk.inj (Option.some.inj hexec)).2
    exact served_deleteEntry h.keyed hguard he
  all_goals rw [Registry.served, Registry.served, hentries rfl]

lemma ownership_boot {p : Platform} {documents : AList (fun _ : String => PiiRegistryEntry)} (hp : p.Wide)
    (hd : Declared documents) : Ownership (p.boot documents) ([] : (registry getTime).Log) where
  keyed := keyed_serve _
  platform entry hm hn := by
    rcases mem_startup hm with hm | ⟨id, hid, -⟩
    · exact (hp entry hm).2
    · rw [(hd id entry hid).1] at hn
      contradiction
  read t tenantId resourceId existing hr := nomatch hr
  pending t pending hp := nomatch hp

def exposes (tenantId resourceId : String) (s : Registry) : Bool :=
  s.served.any fun entry => (entry.tenantId ≠ none && entry.tenantId ≠ some tenantId)
    && (entry.key = keyOf (some tenantId) resourceId || entry.key = keyOf none resourceId)

lemma KeyedEntries.visible_of_getEntry (h : KeyedEntries s.entries) (he : exposes tenantId resourceId s = false)
    (hg : getEntry resourceId (some tenantId) s = some entry) : visibleTo (some tenantId) entry = true := by
  have hkey : entry ∈ s.served ∧ (entry.key = keyOf (some tenantId) resourceId ∨ entry.key = keyOf none resourceId) := by
    rcases Option.or_eq_some_iff.mp hg with hg | ⟨-, hg⟩
    · exact ⟨OrderedMap.mem_values.mpr ⟨_, hg⟩, .inl (h _ _ hg)⟩
    · exact ⟨OrderedMap.mem_values.mpr ⟨_, hg⟩, .inr (h _ _ hg)⟩
  have hn := List.any_eq_false.mp he entry hkey.1
  by_contra hv
  simp only [visibleTo, Option.all_some, Bool.or_eq_true, decide_eq_true_eq, not_or] at hv
  simp [hkey.2, hv] at hn

def Plain (tenantId : String) : Prop := tenantId ≠ globalScope ∧ ':' ∉ tenantId.toList

lemma eq_of_keyOf_eq {scope scope' : Option String} {resourceId' : String} (h : ∀ tenantId ∈ scope, Plain tenantId)
    (h' : ∀ tenantId ∈ scope', Plain tenantId) (hk : keyOf scope resourceId = keyOf scope' resourceId') :
    scope = scope' := by
  have split_first {a b a' b' : List Char} (ha : ':' ∉ a) (ha' : ':' ∉ a') (he : a ++ ':' :: b = a' ++ ':' :: b') :
      a = a' := by
    induction a generalizing a' with
    | nil =>
      cases a' with
      | nil => rfl
      | cons x a' => exact absurd (List.mem_cons.mpr (.inl (List.cons.inj he).1)) ha'
    | cons x a ih =>
      cases a' with
      | nil => exact absurd (List.mem_cons.mpr (.inl (List.cons.inj he).1.symm)) ha
      | cons x' a' =>
        obtain ⟨rfl, ht⟩ := List.cons.inj he
        rw [ih (fun hm => ha (List.mem_cons_of_mem x hm)) (fun hm => ha' (List.mem_cons_of_mem x hm)) ht]
  have hl : (scope.getD globalScope).toList ++ ':' :: ':' :: resourceId.toList =
      (scope'.getD globalScope).toList ++ ':' :: ':' :: resourceId'.toList := by
    simpa [keyOf, String.toList_append] using congrArg String.toList hk
  have plain {scope : Option String} (h : ∀ tenantId ∈ scope, Plain tenantId) :
      ':' ∉ (scope.getD globalScope).toList := by
    cases scope with
    | none => decide
    | some tenantId => exact (h tenantId rfl).2
  have hscope : scope.getD globalScope = scope'.getD globalScope :=
    String.toList_inj.mp (split_first (plain h) (plain h') hl)
  cases scope with
  | none =>
    cases scope' with
    | none => rfl
    | some tenantId' => exact absurd hscope.symm (h' tenantId' rfl).1
  | some tenantId =>
    cases scope' with
    | none => exact absurd hscope (h tenantId rfl).1
    | some tenantId' => exact congrArg some hscope

lemma KeyedEntries.not_collides_of_plain (hk : KeyedEntries s.entries)
    (hs : ∀ entry ∈ s.served, ∀ tenantId ∈ entry.tenantId, Plain tenantId) (ht : Plain tenantId) :
    collides tenantId resourceId s = false ∧ exposes tenantId resourceId s = false := by
  have own : ∀ tenantId' ∈ some tenantId, Plain tenantId' := fun tenantId' h => Option.some.inj h ▸ ht
  constructor
  · rw [collides, Option.any_eq_false]
    intro entry hm
    have hscope := eq_of_keyOf_eq (hs entry (OrderedMap.mem_values.mpr ⟨_, hm⟩)) own (hk _ _ hm)
    simp [hscope]
  · refine List.any_eq_false.mpr fun entry hm => ?_
    simp only [Bool.and_eq_true, Bool.or_eq_true, decide_eq_true_eq]
    rintro ⟨⟨hnone, hown⟩, hk | hk⟩
    · exact hown (eq_of_keyOf_eq (hs entry hm) own hk)
    · exact hnone (eq_of_keyOf_eq (hs entry hm) (by simp) hk)

theorem tenants_are_isolated {p : Platform} {documents : AList (fun _ : String => PiiRegistryEntry)} (hp : p.Wide)
    (hd : Declared documents) {c : Config (registry getTime)}
    (hr : Reachable (isolated getTime) (initial (p.boot documents)) c) :
    (∀ a d, Performs (isolated getTime) c a d →
      (∀ entry, entry.isManual = false → entry ∈ c.state.served → entry ∈ d.state.served) ∧
      (∀ entry, entry.tenantId ≠ some a.op.tenant → (entry ∈ d.state.served ↔ entry ∈ c.state.served)) ∧
      ∀ tenantId resourceId path, tenantId ≠ a.op.tenant → IsProper (docId tenantId resourceId) →
        documentPath (docId tenantId resourceId) = some path → a.op.path ≠ some path ∧
        d.state.documents.lookup (docId tenantId resourceId) = c.state.documents.lookup (docId tenantId resourceId)) ∧
    (∀ filters entry, entry ∈ listEntries filters c.state → visibleTo filters.tenantId entry = true) ∧
    (∀ tenantId resourceId entry, exposes tenantId resourceId c.state = false →
      getEntry resourceId (some tenantId) c.state = some entry → visibleTo (some tenantId) entry = true) ∧
    ((∀ entry ∈ c.state.served, ∀ tenantId ∈ entry.tenantId, Plain tenantId) → ∀ tenantId resourceId, Plain tenantId →
      collides tenantId resourceId c.state = false ∧ exposes tenantId resourceId c.state = false) := by
  have hg := calls_governs getTime
  have hc : Conforms calls (fun _ => True) (initial (S := registry getTime) (p.boot documents)) := conforms_initial trivial
  have ho : Ownership c.state c.log := ownership_inductive.run hg hc (ownership_boot hp hd) hr
  refine ⟨fun a d ha => ?_, fun filters entry hm => ?_, fun tenantId resourceId entry => ho.keyed.visible_of_getEntry,
    fun hs tenantId resourceId => ho.keyed.not_collides_of_plain hs⟩
  · have hallowed := (hc.reachable hg hr).allowed_of_performs hg ha
    have hframe entry (he : entry.tenantId ≠ some a.op.tenant) : entry ∈ d.state.served ↔ entry ∈ c.state.served :=
      ho.frame hallowed rfl he
    refine ⟨fun entry hn hm => (hframe entry ?_).mpr hm, hframe, fun tenantId resourceId path hne hproper hp => ⟨?_, ?_⟩⟩
    · rw [ho.platform entry hm hn]
      exact nofun
    · exact path_ne hallowed.guard hne hproper hp
    · exact exec_documents hallowed.exec fun resourceId' hid => hne (docId_inj hid).1
  · simp only [listEntries, List.mem_filter] at hm
    exact hm.1.1.1.1.2

def sharedUsers : PiiRegistryEntry := { usersOf "" with tenantId := none, ownerConnector := "warehouse" }

def sharedPlatform : Platform := ⟨[sharedUsers], []⟩

abbrev RegistryConfig := (registry fun _ => none).Config

abbrev RegistryAction := (registry fun _ => none).Action

abbrev RegistryEvent := Event (registry fun _ => none)

def declaredByTwo : List RegistryEvent :=
  [.start (.upsertEntry (usersOf "acme")), .start (.upsertEntry (usersOf "globex")), .act 0 .done, .act 1 .done,
    .act 0 .done]

theorem tenants_are_isolated_in_turn : ∃ (c : RegistryConfig) (a : RegistryAction) (d : RegistryConfig),
    Reachable (isolated fun _ => none) (initial (sharedPlatform.boot ∅)) c ∧ Performs (isolated fun _ => none) c a d ∧
    a.op.tenant = "globex" ∧ d.state.served = [sharedUsers, usersOf "acme", usersOf "globex"] ∧
    (∀ entry, entry.tenantId ≠ some "globex" → (entry ∈ d.state.served ↔ entry ∈ c.state.served)) ∧
    ∀ entry, getEntry "bigquery:p.d.users" (some "globex") c.state = some entry →
      visibleTo (some "globex") entry = true := by
  have hrun : ∃ (c : RegistryConfig) (a : RegistryAction) (d : RegistryConfig),
      Reachable (isolated fun _ => none) (initial (sharedPlatform.boot ∅)) c ∧ Performs (isolated fun _ => none) c a d ∧
      a.op.tenant = "globex" ∧ d.state.served = [sharedUsers, usersOf "acme", usersOf "globex"] ∧
      exposes "globex" "bigquery:p.d.users" c.state = false :=
    exists_performs declaredByTwo 1 Outcome.done _ (by decide +kernel)
  obtain ⟨c, a, d, hr, ha, ht, hserved, hread⟩ := hrun
  have hwide : sharedPlatform.Wide := by
    intro entry hm
    rw [List.mem_singleton.mp hm]
    decide +kernel
  obtain ⟨hperforms, -, hvisible, -⟩ := tenants_are_isolated hwide declared_empty hr
  refine ⟨c, a, d, hr, ha, ht, hserved, fun entry he => ?_, fun entry => hvisible _ _ entry hread⟩
  exact (hperforms a d ha).2.1 entry (ht ▸ he)

def declaredByStar : List RegistryEvent := [.start (.upsertEntry (usersOf "*")), .act 0 .done]

theorem shared_entry_replaced : ∃ (c : RegistryConfig) (a : RegistryAction) (d : RegistryConfig),
    Reachable free (initial (sharedPlatform.boot ∅)) c ∧ Performs free c a d ∧
    a.op.tenant = tenantOf (some "*") ∧ sharedUsers.isManual = false ∧
    buildManualEntry usersDeclaration a.op.tenant "2026-01-01T00:00:00.000Z" (some sharedUsers) none = .ok (usersOf "*") ∧
    getEntry "bigquery:p.d.users" (some "acme") c.state = some sharedUsers ∧ sharedUsers ∉ d.state.served ∧
    getEntry "bigquery:p.d.users" (some "acme") d.state = some (usersOf "*") := by
  have hrun : ∃ (c : RegistryConfig) (a : RegistryAction) (d : RegistryConfig),
      Reachable free (initial (sharedPlatform.boot ∅)) c ∧ Performs free c a d ∧ a.op.tenant = tenantOf (some "*") ∧
      getEntry "bigquery:p.d.users" (some "acme") c.state = some sharedUsers ∧ sharedUsers ∉ d.state.served ∧
      getEntry "bigquery:p.d.users" (some "acme") d.state = some (usersOf "*") :=
    exists_performs declaredByStar 0 Outcome.done _ (by decide +kernel)
  obtain ⟨c, a, d, hr, ha, ht, hread, hserved, hstar⟩ := hrun
  refine ⟨c, a, d, hr, ha, ht, by decide +kernel, ?_, hread, hserved, hstar⟩
  rw [ht]
  rfl

example : isResourceId "b::x:c" = true ∧ isResourceId "x:c" = true ∧
    keyOf (some "a") "b::x:c" = keyOf (some "a::b") "x:c" := by decide +kernel

end Isolated

end ChameleonVault.PiiRegistry
