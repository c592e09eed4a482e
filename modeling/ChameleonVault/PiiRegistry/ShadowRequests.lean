import ChameleonVault.PiiRegistry.Executable
import ChameleonVault.PiiRegistry.ShadowCopies

/-! What a request of the registry routes does to the deidentified views, and with it what any
succession of requests does. -/

namespace ChameleonVault.PiiRegistry

open Collections Concurrency
open KeyRegistry (truthy truthy_eq_some_iff)
open Deletion (TableRef parseBigQueryResourceId hasSourceRedactionStrategy)

section Requests

variable {getTime : String → Option ℤ} {service : SourceRedactionService} {s t : World} {entry existing : PiiRegistryEntry}
  {tenantId resourceId : String} {allowed : World → RouteOp → Answer → Prop} {post : World → Prop}

lemma must_change {op : WarehouseOp} {ok : Unit → World → Prop} {err : RouteError → World → Prop}
    (hok : ∀ w, op.apply t.warehouse = .ok w → ok () { t with warehouse := w })
    (herr : ∀ e, op.apply t.warehouse = .error e → err e t) :
    MustCall (RouteOp.exec getTime) allowed (change op) t ok err := by
  have hexec {reply : Except RouteError (RouteOp.Res (.warehouse op))} {answer : Answer} {t' : World}
      (h : (RouteOp.warehouse op).exec getTime answer t = some (reply, t')) :
      (∃ w, op.apply t.warehouse = .ok w ∧ reply = .ok () ∧ t' = { t with warehouse := w }) ∨
        ∃ e, op.apply t.warehouse = .error e ∧ reply = .error e ∧ t' = t := by
    cases answer <;> try cases h
    simp only [RouteOp.exec] at h
    split at h
    · rename_i w happly
      obtain ⟨rfl, rfl⟩ := Prod.mk.inj (Option.some.inj h)
      exact .inl ⟨w, happly, rfl, rfl⟩
    · rename_i e happly
      obtain ⟨rfl, rfl⟩ := Prod.mk.inj (Option.some.inj h)
      exact .inr ⟨e, happly, rfl, rfl⟩
  refine .perform ?_ ?_
  · rintro answer u t' _ h
    obtain ⟨w, happly, -, rfl⟩ | ⟨e, -, hreply, -⟩ := hexec h
    · exact hok w happly
    · cases hreply
  · rintro answer e t' _ h
    obtain ⟨w, -, hreply, -⟩ | ⟨e', happly, hreply, rfl⟩ := hexec h
    · cases hreply
    · exact Except.error.inj hreply ▸ herr e' happly

lemma must_attempt {x : Route Unit} {err : RouteError → World → Prop} {ok : Option RouteError → World → Prop}
    (h : MustCall (RouteOp.exec getTime) allowed x t (fun _ t => ∀ e, ok e t) fun _ t => ∀ e, ok e t) :
    MustCall (RouteOp.exec getTime) allowed (attempt x) t ok err := by
  refine .tryCatch (.bind (h.mono ?_ ?_))
  · exact fun _ t ht => .pure (ht none)
  · exact fun e t ht => .pure (ht (some e))

lemma must_dropShadowCopy {ok : Unit → World → Prop} {err : RouteError → World → Prop}
    (hok : ∀ w, Reshaped (droppedPath entry) none t.warehouse w → ok () { t with warehouse := w })
    (herr : droppedPath entry = none → ∀ e, err e t) :
    MustCall (RouteOp.exec getTime) allowed (dropShadowCopy entry) t ok err := by
  rw [dropShadowCopy]
  split
  · rename_i text hdrop
    exact .throw (herr (by rw [droppedPath, hdrop]) _)
  · rename_i hdrop
    have hpath : droppedPath entry = none := by rw [droppedPath, hdrop]
    exact .pure (hok t.warehouse fun p => by rw [hpath]; rfl)
  · rename_i table hdrop
    have hpath : droppedPath entry = some (shadowPath table) := by rw [droppedPath, hdrop]
    refine .tryCatch (must_change (fun w happly => hok w fun p => ?_) fun e happly => ?_)
    · simp only [WarehouseOp.apply] at happly
      split at happly
      · obtain rfl := Except.ok.inj happly
        rw [hpath]
        by_cases hp : p = shadowPath table
        · rw [hp, if_pos rfl, AList.lookup_erase]
        · rw [if_neg fun h => hp (Option.some.inj h).symm, AList.lookup_erase_ne hp]
      · cases happly
    · simp only [WarehouseOp.apply] at happly
      split at happly
      · cases happly
      · rename_i hnone
        obtain rfl := Except.error.inj happly
        refine .pure (hok t.warehouse fun p => ?_)
        rw [hpath]
        split
        · rename_i hp
          rw [← Option.some.inj hp, hnone]
        · rfl

lemma must_maintainShadowCopy (hchecked : shadowed entry = true → ∃ view, ensureShadowCopy service entry = .ok (some view))
    (h : ∀ w, Reshaped (droppedPath entry) (shadowResident service entry) t.warehouse w → post { t with warehouse := w }) :
    MustCall (RouteOp.exec getTime) allowed (maintainShadowCopy service entry) t (fun _ => post) fun _ => post := by
  rw [maintainShadowCopy]
  cases hview : ensureShadowCopy service entry with
  | error text =>
    refine .throw (h t.warehouse fun p => ?_)
    have hnone : droppedPath entry = none := by
      have hnot : shadowed entry = false := by
        rw [Bool.eq_false_iff]
        intro hs
        obtain ⟨view, hok⟩ := hchecked hs
        cases hview.symm.trans hok
      have hdrop : ∃ text, dropShadowCopyIfExists entry = .error text := by
        rw [ensureShadowCopy] at hview
        have hselected : hasSourceRedactionStrategy entry.resource .shadowCopy = false := hnot
        simp only [hselected, Bool.not_false, if_true] at hview
        cases hd : dropShadowCopyIfExists entry with
        | error text => exact ⟨text, rfl⟩
        | ok table =>
          rw [hd] at hview
          cases hview
      obtain ⟨text, hdrop⟩ := hdrop
      rw [droppedPath, hdrop]
    rw [hnone]
    rfl
  | ok view =>
    cases view with
    | none =>
      have hnew : shadowResident service entry = none := by rw [shadowResident, hview]
      rw [hnew] at h
      exact must_dropShadowCopy h fun hnone _ => h t.warehouse fun p => by rw [hnone]; rfl
    | some view =>
      have hpath := (droppedPath_of_view hview).2
      have hnew : shadowResident service entry = some (shadowOf entry view) := by rw [shadowResident, hview]
      refine .bind (must_dropShadowCopy (fun w hr => must_change (fun w' happly => ?_) fun e happly => ?_) fun hnone => ?_)
      · have hcreated : w.insert (shadowPath view.source) (shadowOf entry view) = w' := by
          simp only [WarehouseOp.apply] at happly
          split at happly
          · cases happly
          · exact Except.ok.inj happly
        refine h w' fun p => ?_
        rw [← hcreated, hpath, hnew]
        by_cases hp : p = shadowPath view.source
        · rw [hp, if_pos rfl, AList.lookup_insert]
        · rw [if_neg fun heq => hp (Option.some.inj heq).symm, AList.lookup_insert_ne hp, hr, hpath,
            if_neg fun heq => hp (Option.some.inj heq).symm]
      · have habsent : w.lookup (shadowPath view.source) = none := by rw [hr, if_pos hpath]
        simp only [WarehouseOp.apply, habsent] at happly
        cases happly
      · cases hpath.symm.trans hnone

lemma extended_insert {w : Warehouse} {maker : Maker} {path : TableRef} {relation : Relation}
    (h : ∀ resident ∈ w.lookup path, resident.maker = some maker) :
    Extended maker w (w.insert path ⟨relation, some maker⟩) := by
  intro p
  by_cases hp : p = path
  · refine .inr ⟨hp ▸ h, fun resident hr => ?_⟩
    rw [hp, AList.lookup_insert] at hr
    rw [← Option.some.inj hr]
  · exact .inl (AList.lookup_insert_ne hp)

lemma must_maintainEncryptedCopy
    (hreplaced : ∀ copy, ensureEncryptedCopyTable entry = .ok (some copy) →
      (∀ resident ∈ t.warehouse.lookup (encryptedCopyRawPath copy.source), resident.relation = .table) →
      ∀ resident ∈ t.warehouse.lookup (encryptedCopyViewPath copy.source), resident.relation ≠ .table →
        resident.maker = some ⟨entry.owner, .encryptedCopy⟩)
    (h : ∀ w, Extended ⟨entry.owner, .encryptedCopy⟩ t.warehouse w → post { t with warehouse := w }) :
    MustCall (RouteOp.exec getTime) allowed (maintainEncryptedCopy entry) t (fun _ => post) fun _ => post := by
  rw [maintainEncryptedCopy]
  split
  · exact .throw (h t.warehouse .refl)
  · exact .pure (h t.warehouse .refl)
  · rename_i copy hcopy
    have hne : encryptedCopyViewPath copy.source ≠ encryptedCopyRawPath copy.source := beside_ne (by decide)
    refine .bind (must_change (fun w happly => ?_) fun e _ => h t.warehouse .refl)
    have hraw : w = t.warehouse ∨ t.warehouse.lookup (encryptedCopyRawPath copy.source) = none ∧
        w = t.warehouse.insert (encryptedCopyRawPath copy.source) ⟨.table, some ⟨entry.owner, .encryptedCopy⟩⟩ := by
      simp only [WarehouseOp.apply] at happly
      split at happly
      · exact .inl (Except.ok.inj happly).symm
      · rename_i hnone
        exact .inr ⟨hnone, (Except.ok.inj happly).symm⟩
    have hextended : Extended ⟨entry.owner, .encryptedCopy⟩ t.warehouse w := by
      rcases hraw with rfl | ⟨hnone, rfl⟩
      · exact .refl
      · exact extended_insert (by rw [hnone]; exact nofun)
    have hsame : w.lookup (encryptedCopyViewPath copy.source) = t.warehouse.lookup (encryptedCopyViewPath copy.source) := by
      rcases hraw with rfl | ⟨-, rfl⟩
      · rfl
      · exact AList.lookup_insert_ne hne
    refine .bind (must_change (fun w' halter => ?_) fun e _ => h w hextended)
    simp only [WarehouseOp.apply] at halter
    split at halter <;> try cases halter
    rename_i maker htable
    have hview := hreplaced copy hcopy fun resident hr => by
      rcases hraw with rfl | ⟨hnone, -⟩
      · rw [Option.mem_def.mp hr] at htable
        rw [Option.some.inj htable]
      · cases hnone.symm.trans hr
    rw [← hsame] at hview
    refine .tryCatch (must_change (fun w' hcreate => ?_) fun e hcreate => ?_)
    · simp only [WarehouseOp.apply] at hcreate
      split at hcreate
      · cases hcreate
      · rename_i hnone
        rw [← Except.ok.inj hcreate]
        exact h _ (hextended.trans (extended_insert (by rw [hnone]; exact nofun)))
    · simp only [WarehouseOp.apply] at hcreate
      split at hcreate
      · obtain rfl := Except.error.inj hcreate
        refine must_change (fun w' hreplace => ?_) fun _ _ => h w hextended
        simp only [WarehouseOp.apply] at hreplace
        split at hreplace
        · cases hreplace
        · rename_i hnotTable
          rw [← Except.ok.inj hreplace]
          refine h _ (hextended.trans (extended_insert fun resident hr => hview resident hr fun htable => ?_))
          obtain ⟨relation, maker⟩ := resident
          exact hnotTable maker (htable ▸ hr)
      · cases hcreate

section Registry

variable {α : Type} {ok : α → World → Prop} {err : RouteError → World → Prop}

lemma must_call_pure {a : α} (h : ok a t) : MustCall (RouteOp.exec getTime) allowed (call (pure a)) t ok err := Must.done h

lemma must_call_throw {e : RegistryError} (h : err (.registry e) t) :
    MustCall (RouteOp.exec getTime) allowed (call (throw e : Service α)) t ok err := Must.done h

lemma must_call_bind {op : Op} {f : op.Res → Service α}
    (hok : ∀ outcome a registry, allowed t (.registry op) (.store outcome) →
      op.exec getTime outcome t.registry = some (.ok a, registry) →
      MustCall (RouteOp.exec getTime) allowed (call (f a)) { t with registry := registry } ok err)
    (herr : ∀ outcome e registry, allowed t (.registry op) (.store outcome) →
      op.exec getTime outcome t.registry = some (.error e, registry) → err (.registry e) { t with registry := registry }) :
    MustCall (RouteOp.exec getTime) allowed (call (perform op >>= f)) t ok err := by
  refine Must.step ?_
  rintro answer reply t' hallowed hexec
  cases answer with
  | store outcome =>
    obtain ⟨⟨result, registry⟩, he, hreply⟩ := Option.map_eq_some_iff.mp hexec
    obtain ⟨rfl, rfl⟩ := Prod.mk.inj hreply
    cases result with
    | ok a => exact hok outcome a registry hallowed he
    | error e => exact Must.done (herr outcome e registry hallowed he)
  | done | failed | tableType kind | columns names => cases hexec

end Registry

lemma Untouched.refl {documents : AList (fun _ : String => PiiRegistryEntry)} :
    Untouched tenantId s { s with registry := { s.registry with documents := documents } } := fun _ _ hl _ => hl

lemma Sound.documents (h : Sound service s) {documents : AList (fun _ : String => PiiRegistryEntry)} :
    Sound service { s with registry := { s.registry with documents := documents } } :=
  ⟨h.keyed, h.declared, ⟨h.maintained.live, h.maintained.only⟩⟩

lemma must_upsertEntry {ok : PiiRegistryEntry → World → Prop} {err : RouteError → World → Prop}
    (hmanual : entry.isManual = true) (ht : truthy entry.tenantId = some tenantId)
    (hok : Maintainable service s entry → ok entry
      { s with registry := (s.registry.upsert tenantId entry).setEntry tenantId entry.resourceId entry })
    (herr : ∀ e documents, err e { s with registry := { s.registry with documents := documents } }) :
    MustCall (RouteOp.exec getTime) (kept service) (call (PiiRegistryService.upsertEntry entry)) s ok err := by
  rw [PiiRegistryService.upsertEntry]
  rw [if_pos hmanual, ht]
  refine must_call_bind (fun outcome _ registry hallowed hstore => ?_) fun outcome e registry _ hstore => ?_
  · obtain ⟨rfl, happly⟩ := runStore_ok (exec_upsert ▸ hstore)
    obtain rfl := (Prod.mk.inj (Except.ok.inj happly)).2
    refine must_call_bind (fun outcome _ registry _ hset => ?_) fun outcome e registry _ hset => ?_
    · obtain rfl := (Prod.mk.inj (Option.some.inj hset)).2
      exact must_call_pure (hok (hallowed rfl))
    · cases (Prod.mk.inj (Option.some.inj hset)).1
  · rcases runStore_cases (exec_upsert ▸ hstore) with ⟨_, happly, -⟩ | ⟨rfl, -, -⟩
    · obtain rfl := (Prod.mk.inj (Except.ok.inj happly)).2
      exact herr _ _
    · exact herr _ s.registry.documents

lemma must_removeEntry {ok : Bool → World → Prop} {err : RouteError → World → Prop}
    (hnone : s.registry.entries.get? (keyOf (some tenantId) resourceId) = none → ok false s)
    (hok : ∀ existing, s.registry.entries.get? (keyOf (some tenantId) resourceId) = some existing →
      existing.isManual = true → Removable s tenantId resourceId →
      ok true { s with registry := (s.registry.delete tenantId resourceId).deleteEntry tenantId resourceId })
    (herr : ∀ e documents, err e { s with registry := { s.registry with documents := documents } }) :
    MustCall (RouteOp.exec getTime) (kept service) (call (PiiRegistryService.removeEntry resourceId tenantId)) s ok err := by
  rw [PiiRegistryService.removeEntry]
  refine must_call_bind (fun outcome existing registry _ hread => ?_) fun outcome e registry _ hread => ?_
  · obtain ⟨hreply, rfl⟩ := Prod.mk.inj (Option.some.inj hread)
    have hget : s.registry.entries.get? (keyOf (some tenantId) resourceId) = existing := Except.ok.inj hreply
    cases existing with
    | none => exact must_call_pure (hnone hget)
    | some existing =>
      simp only []
      split
      · rename_i hmanual
        refine must_call_bind (fun outcome _ registry hallowed hstore => ?_) fun outcome e registry _ hstore => ?_
        · obtain ⟨rfl, happly⟩ := runStore_ok (exec_delete ▸ hstore)
          obtain rfl := (Prod.mk.inj (Except.ok.inj happly)).2
          refine must_call_bind (fun outcome _ registry _ hset => ?_) fun outcome e registry _ hset => ?_
          · obtain rfl := (Prod.mk.inj (Option.some.inj hset)).2
            exact must_call_pure (hok existing hget hmanual (hallowed rfl))
          · cases (Prod.mk.inj (Option.some.inj hset)).1
        · rcases runStore_cases (exec_delete ▸ hstore) with ⟨_, happly, -⟩ | ⟨rfl, -, -⟩
          · obtain rfl := (Prod.mk.inj (Except.ok.inj happly)).2
            exact herr _ _
          · exact herr _ s.registry.documents
      · exact must_call_throw (herr _ s.registry.documents)
  · cases (Prod.mk.inj (Option.some.inj hread)).1

lemma source_of_encryptedCopy {copy : EncryptedCopyTable} (h : ensureEncryptedCopyTable entry = .ok (some copy)) :
    parseBigQueryResourceId entry.resourceId = .ok copy.source := by
  have hselected : hasSourceRedactionStrategy entry.resource .encryptedCopy = true := by
    rw [ensureEncryptedCopyTable] at h
    split at h
    · cases h
    · rename_i hselected
      simpa using hselected
  obtain ⟨-, -, userIdColumn, source, -, -, hsource, rfl⟩ := (ensureEncryptedCopyTable_ok_iff hselected).mp h
  exact hsource

lemma Reshaped.beside {new : Option Resident} {w : Warehouse} {table : TableRef} {suffix : String}
    (hr : Reshaped (droppedPath entry) new s.warehouse w) (hparse : parseBigQueryResourceId entry.resourceId = .ok table)
    (hne : suffix ≠ "_deidentified") : w.lookup (beside table suffix) = s.warehouse.lookup (beside table suffix) := by
  rw [hr, if_neg]
  intro hpath
  obtain ⟨-, table', hparse', hsame⟩ := droppedPath_iff.mp hpath
  obtain rfl := Except.ok.inj (hparse.symm.trans hparse')
  exact beside_ne hne hsame

lemma must_persist (h : Sound service s) (hmanual : entry.isManual = true) (htenant : entry.tenantId = some tenantId)
    (hne : tenantId ≠ "") {status : ℕ} : MustCall (RouteOp.exec getTime) (kept service) (persist service entry status) s
      (fun _ t => Sound service t ∧ Untouched tenantId s t) fun _ _ => False := by
  have hkey : entry.key = keyOf (some tenantId) entry.resourceId := by rw [PiiRegistryEntry.key, htenant]
  refine .tryCatch (.bind (must_upsertEntry hmanual (truthy_eq_some_iff.mpr ⟨htenant, hne⟩) (fun hm => ?_) fun e _ => ?_))
  · refine .bind (must_attempt (must_maintainShadowCopy hm.checked fun w hr shadowCopyError => ?_))
    refine .bind (must_attempt (must_maintainEncryptedCopy (fun copy hcopy => ?_) fun w' he encryptedCopyError => .pure ?_))
    · have hparse := source_of_encryptedCopy hcopy
      have hraw : w.lookup (encryptedCopyRawPath copy.source) = _ := hr.beside hparse (by decide)
      have hview : w.lookup (encryptedCopyViewPath copy.source) = _ := hr.beside hparse (by decide)
      simp only [hraw, hview]
      exact hm.replaced copy hcopy
    · exact h.upsert hm hmanual htenant (by rw [hkey]; rfl) hr he
  · exact .pure ⟨h.documents, .refl⟩

lemma must_find {ok : Option PiiRegistryEntry → World → Prop} {err : RouteError → World → Prop}
    (h : ok (getEntry resourceId (some tenantId) s.registry) s) :
    MustCall (RouteOp.exec getTime) allowed (perform (RouteOp.find resourceId tenantId)) s ok err := by
  refine .perform ?_ ?_
  · rintro answer found t _ hexec
    cases answer <;> try cases hexec
    exact h
  · rintro answer e t _ hexec
    cases answer <;> cases hexec

lemma must_refusedAsView {P : World → Prop} {err : RouteError → World → Prop} (h : P s) :
    MustCall (RouteOp.exec getTime) allowed (refusedAsView entry) s (fun _ => P) err := by
  rw [refusedAsView]
  split
  · refine .bind (.tryCatch (.perform ?_ ?_))
    · rintro answer kind t _ hexec
      cases answer <;> cases hexec
      exact .pure h
    · rintro answer e t _ hexec
      cases answer <;> cases hexec
      exact .pure (.pure h)
  · exact .pure h

lemma must_refusedForColumns {P : World → Prop} {err : RouteError → World → Prop} (h : P s) :
    MustCall (RouteOp.exec getTime) allowed (refusedForColumns entry) s (fun _ => P) err := by
  rw [refusedForColumns]
  split
  · refine .bind (.tryCatch (.perform ?_ ?_))
    · rintro answer names t _ hexec
      cases answer <;> cases hexec
      exact .pure h
    · rintro answer e t _ hexec
      cases answer <;> cases hexec
      exact .pure (.pure h)
  · exact .pure h

lemma tenantOf_ne (header : Option String) : tenantOf header ≠ "" := by
  rw [tenantOf]
  split
  · split
    · decide
    · assumption
  · decide

lemma must_submit (h : Sound service s) (hmanual : entry.isManual = true) (htenant : entry.tenantId = some tenantId)
    (hne : tenantId ≠ "") {status : ℕ} : MustCall (RouteOp.exec getTime) (kept service) (submit service entry status) s
      (fun _ t => Sound service t ∧ Untouched tenantId s t) fun _ _ => False := by
  have hsame : Sound service s ∧ Untouched tenantId s s := ⟨h, fun _ _ hl _ => hl⟩
  have hpersist : MustCall (RouteOp.exec getTime) (kept service) (persist service entry status) s
      (fun _ t => Sound service t ∧ Untouched tenantId s t) fun _ _ => False := must_persist h hmanual htenant hne
  refine .bind (.mono (must_refusedAsView (P := fun t => t = s) rfl) ?_ fun _ _ => False.elim)
  rintro isView t rfl
  split
  · exact .pure hsame
  · refine .bind (.mono (must_refusedForColumns (P := fun u => u = t) rfl) ?_ fun _ _ => False.elim)
    rintro lacksColumns u rfl
    split
    · exact .pure hsame
    · exact hpersist

lemma must_existingEntry {ok : Option PiiRegistryEntry → World → Prop} {err : RouteError → World → Prop}
    {resourceId : Option String} (h : ∀ existing, ok existing s) :
    MustCall (RouteOp.exec getTime) allowed (existingEntry resourceId tenantId) s ok err := by
  rw [existingEntry]
  split
  · exact must_find (h _)
  · exact .pure (h none)

lemma must_upsert (h : Sound service s) {header : Option String} {body : PiiRegistryDeclarationInput}
    {resourceIdFromPath : Option String} {nowIso : String} {actorEmail : Option String} :
    MustCall (RouteOp.exec getTime) (kept service)
      (PiiRegistry.upsert service header body resourceIdFromPath nowIso actorEmail) s
      (fun _ t => Sound service t ∧ Untouched (tenantOf header) s t) fun _ _ => False := by
  have hsame : Sound service s ∧ Untouched (tenantOf header) s s := ⟨h, fun _ _ hl _ => hl⟩
  refine .bind (must_existingEntry fun existing => ?_)
  dsimp only
  split
  · exact .pure hsame
  · split
    · exact .pure hsame
    · rename_i entry hbuilt
      obtain ⟨-, rfl⟩ := accepted hbuilt
      exact must_submit h rfl rfl (tenantOf_ne header)

lemma must_remove (h : Sound service s) {header : Option String} :
    MustCall (RouteOp.exec getTime) (kept service) (PiiRegistry.remove header resourceId) s
      (fun _ t => Sound service t ∧ Untouched (tenantOf header) s t) fun _ _ => False := by
  refine .bind (must_find (.tryCatch (.bind (must_removeEntry (fun _ => ?_) (fun existing hget hmanual hm => ?_) ?_))))
  · exact .pure ⟨h, fun _ _ hl _ => hl⟩
  · have hfound : getEntry resourceId (some (tenantOf header)) s.registry = some existing := by
      rw [getEntry, hget, Option.some_or]
    rw [hfound]
    refine .bind (must_attempt (must_dropShadowCopy (fun w hr _ => ?_) fun hnone _ _ => ?_))
    · exact .pure (h.remove hm hget hmanual rfl hr)
    · exact .pure (h.remove hm hget hmanual rfl fun p => by rw [hnone]; rfl)
  · exact fun _ _ => .pure ⟨h.documents, .refl⟩

lemma must_request (h : Sound service s) (j : RouteCall) : Must (RouteOp.exec getTime) (kept service) (j.body service) s
    fun _ t => Sound service t ∧ Untouched j.tenantId s t := by
  have ends {x : Route Reply} {P : World → Prop}
      (hx : MustCall (RouteOp.exec getTime) (kept service) x s (fun _ => P) fun _ _ => False) :
      Must (RouteOp.exec getTime) (kept service) (x.run.bind fun _ => .done ()) s fun _ => P := by
    refine .bind (.mono hx ?_)
    rintro (e | reply) t ht
    · exact ht.elim
    · exact .done ht
  have hreply : MustCall (RouteOp.exec getTime) (kept service) (j.reply service) s
      (fun _ t => Sound service t ∧ Untouched j.tenantId s t) fun _ _ => False := by
    cases j with
    | upsert header body resourceIdFromPath nowIso actorEmail =>
      rw [RouteCall.reply, RouteCall.tenantId]
      exact must_upsert h
    | remove header resourceId =>
      rw [RouteCall.reply, RouteCall.tenantId]
      exact must_remove h
  exact ends hreply

end Requests

section Runs

variable {getTime : String → Option ℤ} {service : SourceRedactionService} {s : World}
  {entry : PiiRegistryEntry} {p : Platform}
  {warehouse : Warehouse}

def anyRequest (_ : World) (_ : RouteCall) : Prop := True

lemma sound_boot (hp : p.Wide) (hw : ∀ path resident, warehouse.lookup path = some resident → resident.maker = none) :
    Sound service ⟨p.boot ∅, warehouse⟩ := by
  have hnone (entry : PiiRegistryEntry) : ¬ ServedAs ⟨p.boot ∅, warehouse⟩ entry := by
    rintro ⟨hmanual, hget⟩
    rcases mem_composePiiRegistry (mem_serve (OrderedMap.mem_values.mpr ⟨_, hget⟩)) with hm | hm
    · rw [(hp entry hm).1] at hmanual
      cases hmanual
    · cases hm
  refine ⟨keyed_serve _, fun entry hs => absurd hs (hnone entry), ⟨fun entry hs => absurd hs (hnone entry), ?_⟩⟩
  intro path relation owner hlookup
  cases hw path _ hlookup

theorem shadow_copies_maintained (hp : p.Wide)
    (hw : ∀ path resident, warehouse.lookup path = some resident → resident.maker = none)
    (h : Succession (RouteOp.exec getTime) (RouteCall.body service) anyRequest (kept service) ⟨p.boot ∅, warehouse⟩ s) :
    Maintained service s ∧ ∀ j t, Runs (RouteOp.exec getTime) (kept service) (RouteCall.body service j) s () t →
      Untouched j.tenantId s t := by
  have hsound : Sound service s :=
    Succession.keeps (fun s j hs _ => (must_request hs j).mono fun _ _ ht => ht.1) h (sound_boot hp hw)
  exact ⟨hsound.maintained, fun j t hr => (must_request hsound j () t hr).2⟩

def encryptedCopyOf (entry : PiiRegistryEntry) : Option EncryptedCopyTable :=
  match ensureEncryptedCopyTable entry with
  | .ok copy => copy
  | .error _ => none

lemma encryptedCopyOf_iff {copy : EncryptedCopyTable} :
    copy ∈ encryptedCopyOf entry ↔ ensureEncryptedCopyTable entry = .ok (some copy) := by
  rw [encryptedCopyOf]
  split
  · rename_i copy' hcopy
    rw [hcopy, Option.mem_def]
    exact ⟨congrArg Except.ok, Except.ok.inj⟩
  · rename_i hcopy
    rw [hcopy]
    exact iff_of_false nofun nofun

lemma shadowResident_isSome_iff : (shadowResident service entry).isSome = true ↔
    ∃ view, ensureShadowCopy service entry = .ok (some view) := by
  constructor
  · intro h
    obtain ⟨resident, hr⟩ := Option.isSome_iff_exists.mp h
    obtain ⟨view, hview, -⟩ := shadowResident_some hr
    exact ⟨view, hview⟩
  · rintro ⟨view, hview⟩
    rw [shadowResident, hview]
    rfl

lemma maintainable_iff : Maintainable service s entry ↔
    (shadowed entry = true → (shadowResident service entry).isSome = true) ∧
    (∀ path ∈ droppedPath entry, ∀ resident ∈ s.warehouse.lookup path,
      resident.maker = some ⟨entry.owner, .shadowCopy⟩) ∧
    (∀ existing ∈ s.registry.entries.get? entry.key, existing.isManual = true → shadowed existing = true →
      existing.owner = entry.owner ∧ entry.system = .bigquery) ∧
    ∀ copy ∈ encryptedCopyOf entry,
      (∀ resident ∈ s.warehouse.lookup (encryptedCopyRawPath copy.source), resident.relation = .table) →
      ∀ resident ∈ s.warehouse.lookup (encryptedCopyViewPath copy.source), resident.relation ≠ .table →
        resident.maker = some ⟨entry.owner, .encryptedCopy⟩ := by
  simp only [shadowResident_isSome_iff, encryptedCopyOf_iff]
  constructor
  · intro h
    exact ⟨h.checked, h.dropped, h.existing, h.replaced⟩
  · rintro ⟨hchecked, hdropped, hexisting, hreplaced⟩
    exact ⟨hchecked, hdropped, hexisting, hreplaced⟩

instance : Decidable (Maintainable service s entry) := decidable_of_iff _ maintainable_iff.symm

instance {tenantId resourceId : String} : Decidable (Removable s tenantId resourceId) :=
  inferInstanceAs (Decidable (∀ existing ∈ _, _ → _ ∧ ∀ path ∈ _, ∀ resident ∈ _, _))

instance : ∀ s op answer, Decidable (kept service s op answer)
  | _, .registry (.upsert _ _), _ => inferInstanceAs (Decidable (_ → Maintainable _ _ _))
  | _, .registry (.delete _ _), _ => inferInstanceAs (Decidable (_ → Removable _ _ _))
  | _, .registry (.getEntry _ _), _ => isTrue trivial
  | _, .registry (.setEntry _ _ _ _), _ => isTrue trivial
  | _, .registry (.deleteEntry _ _), _ => isTrue trivial
  | _, .registry (.advance _ _ _ _), _ => isTrue trivial
  | _, .find _ _, _ => isTrue trivial
  | _, .getTableType _, _ => isTrue trivial
  | _, .getColumns _, _ => isTrue trivial
  | _, .warehouse _, _ => isTrue trivial

instance (s : World) (j : RouteCall) : Decidable (anyRequest s j) := isTrue trivial

def protectedEntry : PiiRegistryEntry := manualEntry protectedDeclaration "acme" "2026-01-01T00:00:00.000Z" none none

def declareProtected : RouteCall × List Answer :=
  (.upsert (some "acme") protectedDeclaration none "2026-01-01T00:00:00.000Z" none,
    [.done, .columns [], .store .done, .store .done, .done, .done, .done, .done, .done])

def declareUsers (resourceId : String) : RouteCall × List Answer :=
  (.upsert (some "globex") { usersDeclaration with resourceId := some resourceId } none "2026-01-01T00:00:00.000Z" none,
    [.done, .store .done, .store .done, .done])

def usersViewPath : TableRef := ⟨"p", "d", "users_deidentified"⟩

def ordersWarehouse : Warehouse := (∅ : Warehouse).insert ⟨"p", "d", "orders"⟩ ⟨.table, none⟩

theorem shadow_copies_maintained_protected : ∃ s,
    Succession (RouteOp.exec fun _ => none) (RouteCall.body viewsEnabled) anyRequest (kept viewsEnabled)
      ⟨(⟨[], []⟩ : Platform).boot ∅, ordersWarehouse⟩ s ∧
    (s.warehouse.lookup usersViewPath).isSome = true ∧ Maintained viewsEnabled s := by
  have hrun : ∃ s, Succession (RouteOp.exec fun _ => none) (RouteCall.body viewsEnabled) anyRequest (kept viewsEnabled)
      ⟨(⟨[], []⟩ : Platform).boot ∅, ordersWarehouse⟩ s ∧ (s.warehouse.lookup usersViewPath).isSome = true :=
    exists_succession [declareProtected, declareUsers "bigquery:p.d.orders",
      (.remove (some "globex") "bigquery:p.d.orders", [.done, .store .done, .store .done, .store .done, .done])] _
      (by decide +kernel)
  obtain ⟨s, hs, hlive⟩ := hrun
  have hw : ∀ path resident, ordersWarehouse.lookup path = some resident → resident.maker = none := by
    intro path resident hlookup
    by_cases hpath : path = ⟨"p", "d", "orders"⟩
    · rw [hpath, ordersWarehouse, AList.lookup_insert] at hlookup
      rw [← Option.some.inj hlookup]
    · rw [ordersWarehouse, AList.lookup_insert_ne hpath] at hlookup
      cases hlookup
  exact ⟨s, hs, hlive, (shadow_copies_maintained (fun _ hm => absurd hm List.not_mem_nil) hw hs).1⟩

def anyAnswer (_ : World) (_ : RouteOp) (_ : Answer) : Prop := True

instance (s : World) (op : RouteOp) (answer : Answer) : Decidable (anyAnswer s op answer) := isTrue trivial

/-- The declaration of one tenant drops the view of another, whose declaration goes on being served. -/
theorem declaration_drops_view_of_another : ∃ s,
    Succession (RouteOp.exec fun _ => none) (RouteCall.body viewsEnabled) anyRequest anyAnswer
      ⟨(⟨[], []⟩ : Platform).boot ∅, ∅⟩ s ∧
    ServedAs s protectedEntry ∧ shadowed protectedEntry = true ∧ droppedPath protectedEntry = some usersViewPath ∧
    s.warehouse.lookup usersViewPath = none ∧ ¬ Maintained viewsEnabled s := by
  have hrun : ∃ s, Succession (RouteOp.exec fun _ => none) (RouteCall.body viewsEnabled) anyRequest anyAnswer
      ⟨(⟨[], []⟩ : Platform).boot ∅, ∅⟩ s ∧ (s.registry.entries.get? protectedEntry.key = some protectedEntry ∧
        s.warehouse.lookup usersViewPath = none) :=
    exists_succession [declareProtected, declareUsers "bigquery:p.d.users"] _ (by decide +kernel)
  obtain ⟨s, hs, hget, hnone⟩ := hrun
  have hserved : ServedAs s protectedEntry := ⟨rfl, hget⟩
  have hshadowed : shadowed protectedEntry = true := by decide +kernel
  have hpath : droppedPath protectedEntry = some usersViewPath := by decide +kernel
  refine ⟨s, hs, hserved, hshadowed, hpath, hnone, fun hmaintained => ?_⟩
  obtain ⟨view, hview, hlive⟩ := hmaintained.live protectedEntry hserved hshadowed
  rw [← Option.some.inj (hpath.symm.trans (droppedPath_of_view hview).2), hnone] at hlive
  cases hlive

end Runs

end ChameleonVault.PiiRegistry
