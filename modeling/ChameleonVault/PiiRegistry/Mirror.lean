import ChameleonVault.Concurrency.Solo
import ChameleonVault.PiiRegistry.Served
import ChameleonVault.PiiRegistry.Validation

/-! Calls one after another, and what a restart would serve after them. -/

namespace ChameleonVault.PiiRegistry

open Collections Concurrency Encoding PiiRegistryService
open KeyRegistry (truthy truthy_eq_some_iff)

variable {getTime : String → Option ℤ} {s s' : Registry} {outcome : Outcome} {tenantId resourceId candidateIso : String}
  {entry : PiiRegistryEntry} {documents : AList (fun _ : String => PiiRegistryEntry)} {p : Platform}

section Calls

/-- The call runs alone, and the store write it makes, if any, has the outcome. -/
def Job.call (getTime : String → Option ℤ) (j : Job) (outcome : Outcome) (s : Registry) : Option Registry :=
  (evaluate (Op.exec getTime) outcome j.body s).map Prod.snd

lemma evaluate_of_ignore {α : Type} {x : Service α}
    (h : (evaluate (Op.exec getTime) outcome (ignore x) s).map Prod.snd = some s') :
    ∃ e, evaluate (Op.exec getTime) outcome x.run s = some (e, s') := by
  obtain ⟨⟨u, t⟩, he, rfl⟩ := Option.map_eq_some_iff.mp h
  rw [ignore, evaluate_bind] at he
  obtain ⟨⟨e, t'⟩, hx, hdone⟩ := Option.bind_eq_some_iff.mp he
  obtain rfl := (Prod.mk.inj (Option.some.inj hdone)).2
  exact ⟨e, hx⟩

lemma call_upsertEntry (h : (Job.upsertEntry entry).call getTime outcome s = some s') (hu : outcome ≠ .unconfirmed) :
    s' = s ∨ outcome = .done ∧ ∃ tenantId, entry.isManual = true ∧ entry.tenantId = some tenantId ∧ tenantId ≠ "" ∧
      s' = (s.upsert tenantId entry).setEntry tenantId entry.resourceId entry := by
  obtain ⟨e, he⟩ := evaluate_of_ignore h
  rw [upsertEntry] at he
  split at he
  · rename_i hmanual
    split at he
    · exact .inl (Prod.mk.inj (Option.some.inj he)).2.symm
    · rename_i tenantId ht
      obtain ⟨hsome, hne⟩ := truthy_eq_some_iff.mp ht
      rcases evaluate_perform_bind he with ⟨_, t, hstore, he⟩ | ⟨err, hstore, -⟩
      · obtain ⟨hd, hr⟩ := runStore_ok (exec_upsert ▸ hstore)
        obtain ⟨-, rfl⟩ := Prod.mk.inj (Except.ok.inj hr)
        obtain rfl := (Prod.mk.inj (Option.some.inj he)).2
        exact .inr ⟨hd, tenantId, hmanual, hsome, hne, rfl⟩
      · exact .inl (runStore_error (exec_upsert ▸ hstore) hu)
  · exact .inl (Prod.mk.inj (Option.some.inj he)).2.symm

lemma call_removeEntry (h : (Job.removeEntry resourceId tenantId).call getTime outcome s = some s')
    (hu : outcome ≠ .unconfirmed) :
    s' = s ∨ outcome = .done ∧ ∃ existing,
      s.entries.get? (keyOf (some tenantId) resourceId) = some existing ∧ existing.isManual = true ∧
      s' = (s.delete tenantId resourceId).deleteEntry tenantId resourceId := by
  obtain ⟨e, he⟩ := evaluate_of_ignore h
  rw [removeEntry] at he
  rcases evaluate_perform_bind he with ⟨existing, t, hread, he⟩ | ⟨err, hread, -⟩
  · obtain ⟨hreply, rfl⟩ := Prod.mk.inj (Option.some.inj hread)
    have hget : s.entries.get? (keyOf (some tenantId) resourceId) = existing := Except.ok.inj hreply
    cases existing with
    | none => exact .inl (Prod.mk.inj (Option.some.inj he)).2.symm
    | some existing =>
      simp only at he
      split at he
      · rename_i hmanual
        rcases evaluate_perform_bind he with ⟨_, t, hstore, he⟩ | ⟨err, hstore, -⟩
        · obtain ⟨hd, hr⟩ := runStore_ok (exec_delete ▸ hstore)
          obtain ⟨-, rfl⟩ := Prod.mk.inj (Except.ok.inj hr)
          obtain rfl := (Prod.mk.inj (Option.some.inj he)).2
          exact .inr ⟨hd, existing, hget, hmanual, rfl⟩
        · exact .inl (runStore_error (exec_delete ▸ hstore) hu)
      · exact .inl (Prod.mk.inj (Option.some.inj he)).2.symm
  · exact nomatch (Prod.mk.inj (Option.some.inj hread)).1

lemma call_markResource {mark : SyncMark}
    (h : (evaluate (Op.exec getTime) outcome (ignore (markResource mark resourceId tenantId candidateIso)) s).map
      Prod.snd = some s') (hu : outcome ≠ .unconfirmed) :
    s' = s ∨ outcome = .done ∧ ∃ existing stored t, s.entries.get? (keyOf (some tenantId) resourceId) = some existing ∧
      existing.isManual = true ∧ s.advance getTime mark tenantId resourceId candidateIso = .ok (stored, t) ∧
      s' = t.setEntry tenantId resourceId (mark.write stored existing) := by
  obtain ⟨e, he⟩ := evaluate_of_ignore h
  rw [markResource] at he
  rcases evaluate_perform_bind he with ⟨existing, t, hread, he⟩ | ⟨err, hread, -⟩
  · obtain ⟨hreply, rfl⟩ := Prod.mk.inj (Option.some.inj hread)
    have hget : s.entries.get? (keyOf (some tenantId) resourceId) = existing := Except.ok.inj hreply
    cases existing with
    | none => exact .inl (Prod.mk.inj (Option.some.inj he)).2.symm
    | some existing =>
      simp only at he
      split at he
      · rename_i hmanual
        rcases evaluate_perform_bind he with ⟨stored, t, hstore, he⟩ | ⟨err, hstore, -⟩
        · obtain ⟨hd, hr⟩ := runStore_ok (exec_advance ▸ hstore)
          obtain rfl := (Prod.mk.inj (Option.some.inj he)).2
          exact .inr ⟨hd, existing, stored, t, hget, hmanual, hr, rfl⟩
        · exact .inl (runStore_error (exec_advance ▸ hstore) hu)
      · exact .inl (Prod.mk.inj (Option.some.inj he)).2.symm
  · exact nomatch (Prod.mk.inj (Option.some.inj hread)).1

end Calls

section Startup

def loadedAt (key : String) (documents : AList (fun _ : String => PiiRegistryEntry)) : List PiiRegistryEntry :=
  (loadAll documents).filter fun entry => entry.key = key

lemma mem_loadedAt {key : String} : entry ∈ loadedAt key documents ↔
    ∃ id, isTopLevel id = true ∧ documents.lookup id = some entry ∧ entry.key = key := by
  rw [loadedAt, List.mem_filter, decide_eq_true_eq]
  constructor
  · rintro ⟨hm, hk⟩
    obtain ⟨id, hid, hs⟩ := mem_loadAll hm
    exact ⟨id, hs, hid, hk⟩
  · rintro ⟨id, hs, hid, hk⟩
    exact ⟨List.mem_map.mpr ⟨⟨id, entry⟩, List.mem_filter.mpr ⟨AList.mem_lookup_iff.mp hid, hs⟩, rfl⟩, hk⟩

lemma get?_startup (p : Platform) (documents : AList (fun _ : String => PiiRegistryEntry)) (key : String) :
    (p.startup documents).get? key = (loadedAt key documents).getLast?.or
      ((serve (composePiiRegistry p.connectorEntries p.dbtEntries [])).get? key) := by
  have hcompose (manualEntries : List PiiRegistryEntry) :
      composePiiRegistry p.connectorEntries p.dbtEntries manualEntries =
        composePiiRegistry p.connectorEntries p.dbtEntries [] ++ manualEntries := by
    simp only [composePiiRegistry]
    split <;> rw [List.append_nil]
  rw [Platform.startup, hcompose, serve, List.map_append, OrderedMap.get?_ofList_append]
  congr 1
  rw [OrderedMap.get?_ofList, List.filter_map, List.getLast?_map, Option.map_map]
  exact Option.map_id'

lemma get?_startup_congr {documents' : AList (fun _ : String => PiiRegistryEntry)} {key : String}
    (h : loadedAt key documents' = loadedAt key documents) :
    (p.startup documents').get? key = (p.startup documents).get? key := by
  rw [get?_startup, get?_startup, h]

lemma loadedAt_erase {key id : String}
    (h : ∀ document, documents.lookup id = some document → document.key ≠ key) :
    loadedAt key (documents.erase id) = loadedAt key documents := by
  have hentries : (documents.erase id).entries = documents.entries.eraseP fun document => id = document.1 := rfl
  rw [loadedAt, loadedAt, loadAll, loadAll, hentries]
  rcases List.exists_or_eq_self_of_eraseP (fun document => id = document.1) documents.entries with
    he | ⟨document, before, after, -, hid, hl, he⟩
  · rw [he]
  · obtain rfl : id = document.1 := by simpa using hid
    have hm : document ∈ documents.entries := by rw [hl]; simp
    have hne := h document.2 (AList.mem_lookup_iff.mpr hm)
    rw [he, hl]
    simp only [List.filter_append, List.map_append, List.filter_cons]
    split <;> simp [hne]

lemma loadedAt_insert {key id : String} (hk : entry.key ≠ key)
    (h : ∀ document, documents.lookup id = some document → document.key ≠ key) :
    loadedAt key (documents.insert id entry) = loadedAt key documents := by
  rw [← loadedAt_erase h]
  have hentries : (documents.insert id entry).entries = ⟨id, entry⟩ :: (documents.erase id).entries := rfl
  rw [loadedAt, loadedAt, loadAll, loadAll, hentries, List.filter_cons]
  split <;> simp [hk]

lemma slash_mem_docId : '/' ∈ (docId tenantId resourceId).toList ↔ '/' ∈ tenantId.toList := by
  have hencoded := slash_not_mem_encodeURIComponent resourceId
  simp [docId, String.toList_append, hencoded]

lemma isTopLevel_docId (h : '/' ∉ tenantId.toList) : isTopLevel (docId tenantId resourceId) = true := by
  refine isTopLevel_of_plain ?_ fun hs => h (slash_mem_docId.mp hs)
  rw [← String.toList_inj.ne]
  simp [docId, String.toList_append]

def Clear (p : Platform) (documents : AList (fun _ : String => PiiRegistryEntry)) (tenantId resourceId : String) : Prop :=
  (∀ entry ∈ p.connectorEntries ++ p.dbtEntries, entry.key ≠ keyOf (some tenantId) resourceId) ∧
    ∀ document ∈ documents.entries, document.2.key = keyOf (some tenantId) resourceId →
      document.1 = docId tenantId resourceId

instance : Decidable (Clear p documents tenantId resourceId) :=
  inferInstanceAs (Decidable (_ ∧ ∀ document ∈ documents.entries, _))

lemma Clear.get?_startup (hc : Clear p documents tenantId resourceId) (hd : Declared documents) :
    (p.startup documents).get? (keyOf (some tenantId) resourceId) =
      if isTopLevel (docId tenantId resourceId) then documents.lookup (docId tenantId resourceId) else none := by
  have hplatform : (serve (composePiiRegistry p.connectorEntries p.dbtEntries [])).get?
      (keyOf (some tenantId) resourceId) = none := by
    rw [Option.eq_none_iff_forall_not_mem]
    intro entry hm
    rcases mem_composePiiRegistry (mem_serve (OrderedMap.mem_values.mpr ⟨_, hm⟩)) with hp | hp
    · exact hc.1 entry hp (keyed_serve _ _ _ hm)
    · contradiction
  have hloaded {entry : PiiRegistryEntry} (hm : entry ∈ loadedAt (keyOf (some tenantId) resourceId) documents) :
      isTopLevel (docId tenantId resourceId) = true ∧ documents.lookup (docId tenantId resourceId) = some entry := by
    obtain ⟨id, hs, hid, hk⟩ := mem_loadedAt.mp hm
    obtain rfl : id = docId tenantId resourceId := hc.2 _ (AList.mem_lookup_iff.mp hid) hk
    exact ⟨hs, hid⟩
  rw [PiiRegistry.get?_startup, hplatform, Option.or_none]
  cases hlast : (loadedAt (keyOf (some tenantId) resourceId) documents).getLast? with
  | some entry =>
    obtain ⟨hs, hl⟩ := hloaded (List.mem_of_getLast? hlast)
    rw [if_pos hs, hl]
  | none =>
    split
    · rename_i hs
      cases hl : documents.lookup (docId tenantId resourceId) with
      | none => rfl
      | some document =>
        have hm : document ∈ loadedAt (keyOf (some tenantId) resourceId) documents :=
          mem_loadedAt.mpr ⟨_, hs, hl, hd.key_of_lookup hl⟩
        rw [List.getLast?_eq_none_iff.mp hlast] at hm
        contradiction
    · rfl

lemma Clear.insert (hc : Clear p documents tenantId resourceId) (entry : PiiRegistryEntry) :
    Clear p (documents.insert (docId tenantId resourceId) entry) tenantId resourceId := by
  refine ⟨hc.1, fun document hm hk => ?_⟩
  rcases List.mem_cons.mp hm with rfl | hm
  · rfl
  · exact hc.2 document ((List.kerase_sublist _ _).subset hm) hk

lemma Clear.erase (hc : Clear p documents tenantId resourceId) :
    Clear p (documents.erase (docId tenantId resourceId)) tenantId resourceId :=
  ⟨hc.1, fun document hm hk => hc.2 document ((List.kerase_sublist _ _).subset hm) hk⟩

end Startup

section Covers

/-- What a write of the entry leaves in the document is the entry. -/
def Covers (stored : Option PiiRegistryEntry) (entry : PiiRegistryEntry) : Prop :=
  let given {α : Type} (field : PiiRegistryEntry → Option α) : Prop := field entry = none → stored.bind field = none
  given (·.resourceLayer) ∧ given (·.visibility) ∧ given (·.tenantIdColumn) ∧ given (·.userIdColumn) ∧
    given (·.pubsubAllowedCallerServiceAccount) ∧ given (·.userIdFieldPath) ∧ entry.updatedAtColumn ≠ some "" ∧
    (if (truthy entry.updatedAtColumn).isSome then given (·.lastSyncedAt) else entry.lastSyncedAt = none) ∧
    given (·.lastSyncAttemptAt) ∧ given (·.sourceRedactionStrategy) ∧ given (·.sourceRedactionStrategies) ∧
    given (·.notes) ∧ given (·.tenantId) ∧ given (·.status) ∧ given (·.createdAt) ∧ given (·.updatedAt) ∧
    given (·.declaredBy) ∧ entry.lastModifiedBy ≠ some ""

lemma or_eq_self_iff {α : Type} {o o' : Option α} : o.or o' = o ↔ (o = none → o' = none) := by
  cases o <;> simp

lemma truthy_eq_self_iff {o : Option String} : truthy o = o ↔ o ≠ some "" := by
  cases o with
  | none => exact iff_of_true rfl nofun
  | some value => simp [truthy]

lemma ite_or_eq_self_iff {α : Type} {b : Bool} {o o' : Option α} :
    (if b then o.or o' else none) = o ↔ if b then o = none → o' = none else o = none := by
  cases b with
  | true => exact or_eq_self_iff
  | false => exact eq_comm

lemma writeDoc_eq_iff {stored : Option PiiRegistryEntry} : writeDoc stored entry = entry ↔ Covers stored entry := by
  cases entry
  simp only [writeDoc, Covers, PiiRegistryEntry.mk.injEq, or_eq_self_iff, truthy_eq_self_iff, ite_or_eq_self_iff,
    true_and]

instance {stored : Option PiiRegistryEntry} : Decidable (Covers stored entry) := decidable_of_iff _ writeDoc_eq_iff

end Covers

section Sequences

variable {guard : Registry → Job → Outcome → Prop}

/-- One call after another, each where the guard lets it. -/
def Sequence (guard : Registry → Job → Outcome → Prop) (getTime : String → Option ℤ) : Registry → Registry → Prop :=
  Relation.ReflTransGen fun s s' => ∃ j outcome, guard s j outcome ∧ j.call getTime outcome s = some s'

def replayCalls (guard : Registry → Job → Outcome → Prop) [∀ s j outcome, Decidable (guard s j outcome)]
    (getTime : String → Option ℤ) : List (Job × Outcome) → Registry → Option Registry
  | [], s => some s
  | (j, outcome) :: calls, s =>
    if guard s j outcome then (j.call getTime outcome s).bind (replayCalls guard getTime calls) else none

lemma sequence_of_replayCalls [∀ s j outcome, Decidable (guard s j outcome)] {calls : List (Job × Outcome)}
    (h : replayCalls guard getTime calls s = some s') : Sequence guard getTime s s' := by
  induction calls generalizing s with
  | nil => exact Option.some.inj h ▸ .refl
  | cons call calls ih =>
    obtain ⟨j, outcome⟩ := call
    simp only [replayCalls, Option.ite_none_right_eq_some, Option.bind_eq_some_iff] at h
    obtain ⟨hg, t, hj, ht⟩ := h
    exact (ih ht).head ⟨j, outcome, hg, hj⟩

lemma exists_sequence [∀ s j outcome, Decidable (guard s j outcome)] (calls : List (Job × Outcome))
    (P : Registry → Prop) [DecidablePred P]
    (h : (replayCalls guard getTime calls s).any (fun s' => P s') = true) : ∃ s', Sequence guard getTime s s' ∧ P s' := by
  obtain ⟨s', hs, hP⟩ := (Option.any_eq_true _ _).mp h
  exact ⟨s', sequence_of_replayCalls hs, of_decide_eq_true hP⟩

def Alike (p : Platform) (s : Registry) : Job → Prop
  | .upsertEntry entry => entry.isManual = true → ∀ tenantId ∈ truthy entry.tenantId,
      Clear p s.documents tenantId entry.resourceId ∧ '/' ∉ tenantId.toList ∧
        Covers (s.documents.lookup (docId tenantId entry.resourceId)) entry
  | .removeEntry resourceId tenantId =>
    (s.entries.get? (keyOf (some tenantId) resourceId)).isSome = true → Clear p s.documents tenantId resourceId
  | .markResourceSynced resourceId tenantId _ =>
    (s.documents.lookup (docId tenantId resourceId)).isSome = true → Clear p s.documents tenantId resourceId
  | .markResourceSyncAttempted resourceId tenantId _ =>
    (s.documents.lookup (docId tenantId resourceId)).isSome = true → Clear p s.documents tenantId resourceId

def mirrored (p : Platform) (s : Registry) (j : Job) (outcome : Outcome) : Prop :=
  outcome ≠ .unconfirmed ∧ (outcome = .done → Alike p s j)

instance : ∀ j, Decidable (Alike p s j)
  | .upsertEntry _ => inferInstanceAs (Decidable (_ → ∀ _ ∈ _, _ ∧ _ ∧ _))
  | .removeEntry _ _ => inferInstanceAs (Decidable (_ → _))
  | .markResourceSynced _ _ _ => inferInstanceAs (Decidable (_ → _))
  | .markResourceSyncAttempted _ _ _ => inferInstanceAs (Decidable (_ → _))

instance {j : Job} : Decidable (mirrored p s j outcome) := inferInstanceAs (Decidable (_ ∧ (_ → _)))

/-- The memory is what a restart would build from the store. -/
structure Mirrors (p : Platform) (s : Registry) : Prop where
  declared : Declared s.documents
  entries (key : String) : s.entries.get? key = (p.startup s.documents).get? key

lemma Mirrors.upsert (h : Mirrors p s) (hm : entry.isManual = true) (ht : entry.tenantId = some tenantId)
    (hne : tenantId ≠ "") (hc : Clear p s.documents tenantId entry.resourceId) (hs : '/' ∉ tenantId.toList)
    (hw : Covers (s.documents.lookup (docId tenantId entry.resourceId)) entry) :
    Mirrors p ((s.upsert tenantId entry).setEntry tenantId entry.resourceId entry) := by
  have hkey : entry.key = keyOf (some tenantId) entry.resourceId := by rw [PiiRegistryEntry.key, ht]
  have hdeclared := h.declared.insert hm ht hne
  have hdocuments : (s.upsert tenantId entry).documents =
      s.documents.insert (docId tenantId entry.resourceId) entry := by
    rw [Registry.upsert, writeDoc_eq_iff.mpr hw]
  refine ⟨?_, fun key => ?_⟩
  · rw [Registry.setEntry, hdocuments]
    exact hdeclared
  · rw [Registry.setEntry, hdocuments]
    by_cases hk : key = keyOf (some tenantId) entry.resourceId
    · rw [hk, (hc.insert entry).get?_startup hdeclared, if_pos (isTopLevel_docId hs), AList.lookup_insert]
      exact OrderedMap.get?_set_self _ _ _
    · have hloaded : loadedAt key (s.documents.insert (docId tenantId entry.resourceId) entry) =
          loadedAt key s.documents :=
        loadedAt_insert (hkey ▸ Ne.symm hk) fun document hl => h.declared.key_of_lookup hl ▸ Ne.symm hk
      rw [get?_startup_congr hloaded, ← h.entries key]
      exact OrderedMap.get?_set_ne hk _ _

lemma Mirrors.remove (h : Mirrors p s) (hc : Clear p s.documents tenantId resourceId) :
    Mirrors p ((s.delete tenantId resourceId).deleteEntry tenantId resourceId) := by
  have hdeclared := h.declared.erase (docId tenantId resourceId)
  refine ⟨hdeclared, fun key => ?_⟩
  by_cases hk : key = keyOf (some tenantId) resourceId
  · rw [hk, Registry.deleteEntry, Registry.delete, hc.erase.get?_startup hdeclared, AList.lookup_erase, ite_self]
    exact OrderedMap.get?_erase_self _ _
  · have hloaded : loadedAt key (s.documents.erase (docId tenantId resourceId)) = loadedAt key s.documents :=
      loadedAt_erase fun document hl => h.declared.key_of_lookup hl ▸ Ne.symm hk
    rw [Registry.deleteEntry, Registry.delete, get?_startup_congr hloaded, ← h.entries key]
    exact OrderedMap.get?_erase_ne hk _

lemma Mirrors.mark (h : Mirrors p s) {mark : SyncMark} {existing : PiiRegistryEntry} {stored : String} {t : Registry}
    (hget : s.entries.get? (keyOf (some tenantId) resourceId) = some existing)
    (hr : s.advance getTime mark tenantId resourceId candidateIso = .ok (stored, t))
    (hc : (s.documents.lookup (docId tenantId resourceId)).isSome = true → Clear p s.documents tenantId resourceId) :
    Mirrors p (t.setEntry tenantId resourceId (mark.write stored existing)) := by
  obtain ⟨document, hl, hcases⟩ := advance_cases hr
  have hclear := hc (by rw [hl]; rfl)
  have hstartup := hclear.get?_startup h.declared
  rw [← h.entries, hget, hl] at hstartup
  split at hstartup
  · rename_i hs
    obtain rfl := Option.some.inj hstartup
    rcases hcases with ⟨hcurrent, -, rfl⟩ | ⟨rfl, -, rfl⟩
    · rw [SyncMark.write_timestamp (truthy_eq_some_iff.mp hcurrent).1]
      refine ⟨h.declared, fun key => ?_⟩
      rw [Registry.setEntry, OrderedMap.get?_set, ← h.entries key]
      split
      · rename_i hk
        rw [hk, hget]
      · rfl
    · obtain ⟨hm, hne, ht, rfl⟩ := h.declared.of_lookup hl
      have hkey := h.declared.key_of_lookup hl
      have hdeclared : Declared (s.documents.insert (docId tenantId (mark.write stored existing).resourceId)
          (mark.write stored existing)) := h.declared.insert (by simpa using hm) (by simpa using ht) hne
      rw [resourceId_write] at hdeclared
      refine ⟨hdeclared, fun key => ?_⟩
      by_cases hk : key = keyOf (some tenantId) existing.resourceId
      · rw [hk, Registry.setEntry, OrderedMap.get?_set_self, (hclear.insert _).get?_startup hdeclared, if_pos hs,
          AList.lookup_insert]
      · have hloaded : loadedAt key (s.documents.insert (docId tenantId existing.resourceId)
            (mark.write stored existing)) = loadedAt key s.documents :=
          loadedAt_insert (by rw [key_write, hkey]; exact Ne.symm hk) fun document hl =>
            h.declared.key_of_lookup hl ▸ Ne.symm hk
        rw [Registry.setEntry, get?_startup_congr hloaded, ← h.entries key]
        exact OrderedMap.get?_set_ne hk _ _
  · contradiction

lemma Mirrors.call (h : Mirrors p s) {j : Job} (hg : mirrored p s j outcome) (hj : j.call getTime outcome s = some s') :
    Mirrors p s' := by
  obtain ⟨hu, halike⟩ := hg
  cases j with
  | upsertEntry entry =>
    rcases call_upsertEntry hj hu with rfl | ⟨hd, tenantId, hm, ht, hne, rfl⟩
    · exact h
    · have ha := halike hd
      obtain ⟨hc, hs, hw⟩ := ha hm tenantId (truthy_eq_some_iff.mpr ⟨ht, hne⟩)
      exact h.upsert hm ht hne hc hs hw
  | removeEntry resourceId tenantId =>
    rcases call_removeEntry hj hu with rfl | ⟨hd, existing, hget, hm, rfl⟩
    · exact h
    · exact h.remove (halike hd (by rw [hget]; rfl))
  | markResourceSynced resourceId tenantId candidateIso =>
    rcases call_markResource hj hu with rfl | ⟨hd, existing, stored, t, hget, hm, hr, rfl⟩
    · exact h
    · exact h.mark hget hr (halike hd)
  | markResourceSyncAttempted resourceId tenantId candidateIso =>
    rcases call_markResource hj hu with rfl | ⟨hd, existing, stored, t, hget, hm, hr, rfl⟩
    · exact h
    · exact h.mark hget hr (halike hd)

lemma Mirrors.sequence (h : Mirrors p s) (hr : Sequence (mirrored p) getTime s s') : Mirrors p s' := by
  induction hr with
  | refl => exact h
  | tail _ hstep ih =>
    obtain ⟨j, outcome, hg, hj⟩ := hstep
    exact ih.call hg hj

theorem memory_mirrors_store (hd : Declared documents) (hr : Sequence (mirrored p) getTime (p.boot documents) s) :
    ((p.boot s.documents).served.filter PiiRegistryEntry.isManual).Perm (s.served.filter PiiRegistryEntry.isManual) := by
  have hm : Mirrors p (p.boot documents) := ⟨hd, fun key => rfl⟩
  have hperm := OrderedMap.perm_values_of_get? fun key => ((hm.sequence hr).entries key).symm
  exact hperm.filter _

def trackedUsers : PiiRegistryDeclarationInput := { usersDeclaration with updatedAtColumn := some "updated_at" }

def trackedEntry : PiiRegistryEntry := manualEntry trackedUsers "acme" "2026-01-01T00:00:00.000Z" none none

def exampleTimes : String → Option ℤ
  | "2026-01-01T00:00:00.000Z" => some 1767225600000
  | "2026-01-02T00:00:00.000Z" => some 1767312000000
  | _ => none

theorem memory_mirrors_store_synced : ∃ s,
    Sequence (mirrored ⟨[], []⟩) exampleTimes ((⟨[], []⟩ : Platform).boot ∅) s ∧
    s.served.filter PiiRegistryEntry.isManual =
      [{ trackedEntry with lastSyncedAt := some "2026-01-02T00:00:00.000Z" }, usersOf "globex"] ∧
    (((⟨[], []⟩ : Platform).boot s.documents).served.filter PiiRegistryEntry.isManual).Perm
      (s.served.filter PiiRegistryEntry.isManual) := by
  have hrun : ∃ s, Sequence (mirrored ⟨[], []⟩) exampleTimes ((⟨[], []⟩ : Platform).boot ∅) s ∧
      s.served.filter PiiRegistryEntry.isManual =
        [{ trackedEntry with lastSyncedAt := some "2026-01-02T00:00:00.000Z" }, usersOf "globex"] :=
    exists_sequence [(.upsertEntry trackedEntry, .done), (.upsertEntry (usersOf "globex"), .done),
      (.markResourceSynced "bigquery:p.d.users" "acme" "2026-01-02T00:00:00.000Z", .done),
      (.removeEntry "bigquery:p.d.users" "globex", .failed),
      (.markResourceSynced "bigquery:p.d.users" "acme" "2026-01-01T00:00:00.000Z", .done)] _ (by decide +kernel)
  obtain ⟨s, hr, hs⟩ := hrun
  exact ⟨s, hr, hs, memory_mirrors_store declared_empty hr⟩

def notedUsers : PiiRegistryDeclarationInput := { usersDeclaration with notes := some "until the migration" }

def notedEntry : PiiRegistryEntry := manualEntry notedUsers "acme" "2026-01-01T00:00:00.000Z" none none

theorem restart_serves_old_notes :
    buildManualEntry notedUsers "acme" "2026-01-01T00:00:00.000Z" none none = .ok notedEntry ∧
    buildManualEntry usersDeclaration "acme" "2026-01-01T00:00:00.000Z" (some notedEntry) none = .ok (usersOf "acme") ∧
    ∃ s, Sequence (fun _ _ outcome => outcome = .done) exampleTimes ((⟨[], []⟩ : Platform).boot ∅) s ∧
      s.served.filter PiiRegistryEntry.isManual = [usersOf "acme"] ∧
      ((⟨[], []⟩ : Platform).boot s.documents).served.filter PiiRegistryEntry.isManual = [notedEntry] ∧
      ¬ (((⟨[], []⟩ : Platform).boot s.documents).served.filter PiiRegistryEntry.isManual).Perm
        (s.served.filter PiiRegistryEntry.isManual) :=
  ⟨rfl, rfl, exists_sequence [(.upsertEntry notedEntry, .done), (.upsertEntry (usersOf "acme"), .done)] _
    (by decide +kernel)⟩

end Sequences

end ChameleonVault.PiiRegistry
