import ChameleonVault.Concurrency.Simulation
import ChameleonVault.PiiRegistry.Encodings
import ChameleonVault.PiiRegistry.ShadowRequests

/-! What the route that declares a resource decides about either way to write its strategies. -/

namespace ChameleonVault.PiiRegistry

open Concurrency
open KeyRegistry (truthy truthy_eq_some_iff)

section Decisions

/-- What the schema source says of the table, where it says anything. -/
structure SchemaSource where
  tableType : Option (Option String) := none
  columns : Option (List String) := none

def SchemaSource.answers (schema : SchemaSource) (_ : World) : RouteOp → Answer → Prop
  | .getTableType _, answer => answer = (schema.tableType.map Answer.tableType).getD .failed
  | .getColumns _, answer => answer = (schema.columns.map Answer.columns).getD .failed
  | _, _ => True

def requestInput (body : PiiRegistryDeclarationInput) (resourceIdFromPath : Option String) :
    PiiRegistryDeclarationInput :=
  match truthy resourceIdFromPath with
  | some resourceId => { body with resourceId := some resourceId }
  | none => body

/-- In whatever state, and however the store answers, the one body can get just the replies of the other. -/
def SameDecision (header resourceIdFromPath : Option String) (first second : PiiRegistryDeclarationInput) : Prop :=
  ∀ (service : SourceRedactionService) (nowIso : String) (actorEmail : Option String) (getTime : String → Option ℤ)
    (schema : SchemaSource) (s : World) (reply : Except RouteError Reply),
    (∃ t, Runs (RouteOp.exec getTime) schema.answers
      (PiiRegistry.upsert service header first resourceIdFromPath nowIso actorEmail).run s reply t) ↔
    ∃ t, Runs (RouteOp.exec getTime) schema.answers
      (PiiRegistry.upsert service header second resourceIdFromPath nowIso actorEmail).run s reply t

def Interchangeable (tenantId : String) (first second : PiiRegistryDeclarationInput) : Prop :=
  declarationErrors (inArrayForm first) tenantId ≠ [] ∨
    legacyAccepted first = legacyAccepted second ∧
      (legacyAccepted first = true → readAsInPlace first = readAsInPlace second)

end Decisions

section Persistence

variable {getTime : String → Option ℤ} {schema : SchemaSource} {service : SourceRedactionService}
  {first second : PiiRegistryEntry} {status : ℕ}

def BesideRegistry : RouteOp → Prop
  | .registry _ => False
  | .find _ _ => False
  | _ => True

def SameWarehouse (s t : World) : Prop := s.warehouse = t.warehouse

lemma uses_change (op : WarehouseOp) : (change op).run.Uses BesideRegistry := Call.uses_perform trivial

lemma uses_attempt {x : Route Unit} (hx : x.run.Uses BesideRegistry) : (attempt x).run.Uses BesideRegistry :=
  Call.uses_tryCatch (Call.uses_bind hx fun _ => Call.uses_pure _) fun _ => Call.uses_pure _

lemma uses_dropShadowCopy (resource : PiiRegistryEntry) : (dropShadowCopy resource).run.Uses BesideRegistry := by
  rw [dropShadowCopy]
  split
  · exact Call.uses_throw _
  · exact Call.uses_pure _
  · refine Call.uses_tryCatch (uses_change _) fun error => ?_
    split
    · exact Call.uses_pure _
    · exact Call.uses_throw _

lemma uses_maintainShadowCopy (resource : PiiRegistryEntry) :
    (maintainShadowCopy service resource).run.Uses BesideRegistry := by
  rw [maintainShadowCopy]
  split
  · exact Call.uses_throw _
  · exact uses_dropShadowCopy resource
  · exact Call.uses_bind (uses_dropShadowCopy resource) fun _ => uses_change _

lemma uses_maintainEncryptedCopy (resource : PiiRegistryEntry) : (maintainEncryptedCopy resource).run.Uses BesideRegistry := by
  rw [maintainEncryptedCopy]
  split
  · exact Call.uses_throw _
  · exact Call.uses_pure _
  · refine Call.uses_bind (uses_change _) fun _ => Call.uses_bind (uses_change _) fun _ => ?_
    refine Call.uses_tryCatch (uses_change _) fun error => ?_
    split
    · exact uses_change _
    · exact Call.uses_throw _

lemma uses_maintainCopies (saved : PiiRegistryEntry) : (maintainCopies service saved status).run.Uses BesideRegistry :=
  Call.uses_bind (uses_attempt (uses_maintainShadowCopy saved)) fun _ =>
    Call.uses_bind (uses_attempt (uses_maintainEncryptedCopy saved)) fun _ => Call.uses_pure _

lemma uses_refusedAsView (entry : PiiRegistryEntry) : (refusedAsView entry).run.Uses BesideRegistry := by
  rw [refusedAsView]
  split
  · exact Call.uses_bind (Call.uses_tryCatch (Call.uses_perform trivial) fun _ => Call.uses_pure _) fun _ => Call.uses_pure _
  · exact Call.uses_pure _

lemma uses_refusedForColumns (entry : PiiRegistryEntry) : (refusedForColumns entry).run.Uses BesideRegistry := by
  rw [refusedForColumns]
  split
  · exact Call.uses_bind (Call.uses_tryCatch (Call.uses_perform trivial) fun _ => Call.uses_pure _) fun _ => Call.uses_pure _
  · exact Call.uses_pure _

lemma beside_step {op : RouteOp} {answer : Answer} {reply : Except RouteError op.Res} {s s' t : World} (hop : BesideRegistry op)
    (hs : SameWarehouse s s') (ha : schema.answers s op answer) (he : op.exec getTime answer s = some (reply, t)) :
    ∃ t', schema.answers s' op answer ∧ op.exec getTime answer s' = some (reply, t') ∧ SameWarehouse t t' := by
  cases op with
  | warehouse op =>
    cases answer with
    | done =>
      have hw : s.warehouse = s'.warehouse := hs
      simp only [RouteOp.exec] at he ⊢
      rw [← hw]
      split at he
      · obtain ⟨rfl, rfl⟩ := Prod.mk.inj (Option.some.inj he)
        exact ⟨_, trivial, rfl, rfl⟩
      · obtain ⟨rfl, rfl⟩ := Prod.mk.inj (Option.some.inj he)
        exact ⟨_, trivial, rfl, hs⟩
    | failed | store outcome | tableType kind | columns names => cases he
  | getTableType resourceId | getColumns resourceId =>
    cases answer <;> cases he
    all_goals exact ⟨s', ha, rfl, hs⟩
  | registry op | find resourceId tenantId => exact hop.elim

namespace Reencoded

variable (h : Reencoded first second)
include h

lemma owner_eq : first.owner = second.owner := (congrArg PiiRegistryEntry.owner h.rest :)

lemma dropShadowCopy_eq : PiiRegistry.dropShadowCopy first = PiiRegistry.dropShadowCopy second :=
  (congrArg PiiRegistry.dropShadowCopy h.rest :)

lemma maintainCopies_eq : maintainCopies service first status = maintainCopies service second status := by
  have hshadow : maintainShadowCopy service first = maintainShadowCopy service second := by
    simp only [maintainShadowCopy]
    rw [h.treatedAlike.ensureShadowCopy, h.dropShadowCopy_eq, h.owner_eq]
  have hencrypted : maintainEncryptedCopy first = maintainEncryptedCopy second := by
    simp only [maintainEncryptedCopy]
    rw [h.treatedAlike.ensureEncryptedCopyTable, h.owner_eq]
  rw [maintainCopies, maintainCopies, hshadow, hencrypted]

end Reencoded

/-- The store and the memory answer alike, whatever they are told to keep. -/
lemma simulates_call_bind {α β : Type} {S : α → β → Prop} {op op' : Op} {f : op.Res → Service α} {f' : op'.Res → Service β}
    (hexec : ∀ outcome registry registry' reply t, op.exec getTime outcome registry = some (reply, t) →
      ∃ reply' t', op'.exec getTime outcome registry' = some (reply', t') ∧
        OnOk (fun a a' => SimulatesCall (RouteOp.exec getTime) schema.answers SameWarehouse S (call (f a)) (call (f' a')))
          reply reply') :
    SimulatesCall (RouteOp.exec getTime) schema.answers SameWarehouse S (call (perform op >>= f))
      (call (perform op' >>= f')) := by
  refine Simulates.step ?_
  rintro s s' answer reply t hs - he
  cases answer with
  | store outcome =>
    obtain ⟨⟨result, registry⟩, hop, hreply⟩ := Option.map_eq_some_iff.mp he
    obtain ⟨rfl, rfl⟩ := Prod.mk.inj hreply
    obtain ⟨result', registry', hop', hok⟩ := hexec outcome s.registry s'.registry result registry hop
    refine ⟨.store outcome, result'.mapError .registry, { s' with registry := registry' }, trivial, ?_, hs, ?_⟩
    · exact Option.map_eq_some_iff.mpr ⟨(result', registry'), hop', rfl⟩
    · cases result with
      | error e =>
        cases result' with
        | error e' =>
          obtain rfl : e = e' := hok
          exact Simulates.done rfl
        | ok a' => exact hok.elim
      | ok a =>
        cases result' with
        | error e' => exact hok.elim
        | ok a' => exact hok
  | done | failed | tableType kind | columns names => cases he

lemma simulates_setEntry {tenantId tenantId' : String} :
    SimulatesCall (RouteOp.exec getTime) schema.answers SameWarehouse (fun saved saved' => saved = first ∧ saved' = second)
      (call (do let _ ← perform (Op.setEntry tenantId first.resourceId first none); return first))
      (call (do let _ ← perform (Op.setEntry tenantId' second.resourceId second none); return second)) := by
  refine simulates_call_bind fun outcome registry registry' reply t he => ?_
  obtain ⟨rfl, rfl⟩ := Prod.mk.inj (Option.some.inj he)
  exact ⟨.ok (), _, rfl, Simulates.done ⟨rfl, rfl⟩⟩

lemma simulates_upsertEntry (h : Reencoded first second) :
    SimulatesCall (RouteOp.exec getTime) schema.answers SameWarehouse (fun saved saved' => saved = first ∧ saved' = second)
      (call (PiiRegistryService.upsertEntry first)) (call (PiiRegistryService.upsertEntry second)) := by
  have hmanual : first.isManual = second.isManual := (congrArg PiiRegistryEntry.isManual h.rest :)
  have htenant : first.tenantId = second.tenantId := (congrArg PiiRegistryEntry.tenantId h.rest :)
  simp only [PiiRegistryService.upsertEntry]
  rw [hmanual, htenant]
  split
  · split
    · exact Simulates.done rfl
    · refine simulates_call_bind fun outcome registry registry' reply t he => ?_
      cases outcome with
      | done =>
        obtain ⟨rfl, rfl⟩ := Prod.mk.inj (Option.some.inj he)
        exact ⟨.ok (), _, rfl, simulates_setEntry⟩
      | failed =>
        obtain ⟨rfl, rfl⟩ := Prod.mk.inj (Option.some.inj he)
        exact ⟨.error unavailable, _, rfl, rfl⟩
      | unconfirmed =>
        obtain ⟨rfl, rfl⟩ := Prod.mk.inj (Option.some.inj he)
        exact ⟨.error unavailable, _, rfl, rfl⟩
  · exact Simulates.done rfl

lemma simulates_persist (h : Reencoded first second) :
    SimulatesCall (RouteOp.exec getTime) schema.answers SameWarehouse Eq (persist service first status)
      (persist service second status) := by
  refine .tryCatch (.bind (simulates_upsertEntry h) ?_) fun error => .pure rfl
  rintro saved saved' ⟨rfl, rfl⟩
  rw [← h.maintainCopies_eq]
  exact .of_uses (uses_maintainCopies saved) fun op answer reply s s' t => beside_step

end Persistence

section Requests

variable {getTime : String → Option ℤ} {schema : SchemaSource} {service : SourceRedactionService}
  {header resourceIdFromPath : Option String} {body first second : PiiRegistryDeclarationInput} {nowIso : String}
  {actorEmail : Option String} {existing : Option PiiRegistryEntry} {tenantId : String} {s : World}

/-- The route once it has looked up what is declared under the resource. -/
def declare (service : SourceRedactionService) (header : Option String) (body : PiiRegistryDeclarationInput)
    (resourceIdFromPath : Option String) (nowIso : String) (actorEmail : Option String)
    (existing : Option PiiRegistryEntry) : Route Reply :=
  let edited := (truthy resourceIdFromPath).isSome
  if edited && existing.any (!PiiRegistryEntry.isManual ·) then return ⟨409, none, none⟩
  else match buildManualEntry (requestInput body resourceIdFromPath) (tenantOf header) nowIso existing actorEmail with
    | .error _ => return ⟨400, none, none⟩
    | .ok entry => submit service entry (if edited || existing.isSome then 200 else 201)

lemma upsert_eq : PiiRegistry.upsert service header body resourceIdFromPath nowIso actorEmail =
    existingEntry (requestInput body resourceIdFromPath).resourceId (tenantOf header) >>=
      declare service header body resourceIdFromPath nowIso actorEmail := by
  unfold PiiRegistry.upsert requestInput
  dsimp only
  refine congrArg (existingEntry _ (tenantOf header) >>= ·) (funext fun existing => ?_)
  unfold declare requestInput
  cases truthy resourceIdFromPath with
  | none => cases buildManualEntry body (tenantOf header) nowIso existing actorEmail <;> rfl
  | some resourceId =>
    cases buildManualEntry { body with resourceId := some resourceId } (tenantOf header) nowIso existing
      actorEmail <;> rfl

lemma refusedAsView_eq {entry entry' : PiiRegistryEntry} (hid : entry.resourceId = entry'.resourceId)
    (hread : (entry.sourceRedactionStrategy = some .redactInPlace ∧ entry.system = .bigquery) ↔
      (entry'.sourceRedactionStrategy = some .redactInPlace ∧ entry'.system = .bigquery)) :
    refusedAsView entry = refusedAsView entry' := by
  simp only [refusedAsView]
  rw [hid]
  by_cases h : entry.sourceRedactionStrategy = some .redactInPlace ∧ entry.system = .bigquery
  · rw [if_pos h, if_pos (hread.mp h)]
  · rw [if_neg h, if_neg fun h' => h (hread.mpr h')]

lemma Reencoded.refusedForColumns_eq {entry entry' : PiiRegistryEntry} (h : Reencoded entry entry') :
    refusedForColumns entry = refusedForColumns entry' := by
  have hne : Deletion.resolveSourceRedactionStrategies entry.resource ≠ [] ↔
      Deletion.resolveSourceRedactionStrategies entry'.resource ≠ [] := by
    simp only [ne_eq, List.eq_nil_iff_forall_not_mem, h.strategies]
  rw [h.eq_with] at hne ⊢
  simp only [refusedForColumns]
  simp only [hne]

lemma simulates_submit {entry entry' : PiiRegistryEntry} {status : ℕ} (h : Reencoded entry entry')
    (hview : refusedAsView entry = refusedAsView entry') :
    SimulatesCall (RouteOp.exec getTime) schema.answers SameWarehouse Eq (submit service entry status)
      (submit service entry' status) := by
  have hview' : SimulatesCall (RouteOp.exec getTime) schema.answers SameWarehouse Eq (refusedAsView entry)
      (refusedAsView entry) := .of_uses (uses_refusedAsView entry) fun op answer reply s s' t => beside_step
  have hcolumns : SimulatesCall (RouteOp.exec getTime) schema.answers SameWarehouse Eq (refusedForColumns entry)
      (refusedForColumns entry) := .of_uses (uses_refusedForColumns entry) fun op answer reply s s' t => beside_step
  simp only [submit]
  rw [← hview, ← h.refusedForColumns_eq]
  refine hview'.bind ?_
  rintro isView _ rfl
  cases isView with
  | true => exact .pure rfl
  | false =>
    refine hcolumns.bind ?_
    rintro lacksColumns _ rfl
    cases lacksColumns with
    | true => exact .pure rfl
    | false => exact simulates_persist h

lemma buildManualEntry_refuses (h : declarationErrors body tenantId ≠ []) :
    ∃ errors, buildManualEntry body tenantId nowIso existing actorEmail = .error errors := by
  rw [buildManualEntry]
  split
  · rename_i hnone
    exact absurd hnone h
  · exact ⟨_, rfl⟩

lemma SameStrategies.requestInput (h : SameStrategies first second) (resourceIdFromPath : Option String) :
    SameStrategies (requestInput first resourceIdFromPath) (requestInput second resourceIdFromPath) := by
  simp only [PiiRegistry.requestInput]
  split
  · rename_i resourceId _
    exact ⟨(congrArg (fun input : PiiRegistryDeclarationInput => { input with resourceId := some resourceId }) h.rest :),
      h.strategies⟩
  · exact h

variable {input input' : PiiRegistryDeclarationInput}

lemma Interchangeable.valid (h : SameStrategies input input') (hi : Interchangeable tenantId input input')
    (hv : declarationErrors input tenantId = []) :
    declarationErrors input' tenantId = [] ∧ readAsInPlace input = readAsInPlace input' := by
  obtain ⟨harray, hlegacy⟩ := errors_eq_nil_iff.mp hv
  rcases hi with hrefused | ⟨heq, hread⟩
  · exact absurd harray hrefused
  · exact ⟨errors_eq_nil_iff.mpr ⟨h.arrayForm_iff.mp harray, heq ▸ hlegacy⟩, hread hlegacy⟩

lemma Interchangeable.symm (h : SameStrategies input input') (hi : Interchangeable tenantId input input') :
    Interchangeable tenantId input' input := by
  rcases hi with hrefused | ⟨heq, hread⟩
  · exact .inl fun harray => hrefused (h.arrayForm_iff.mpr harray)
  · exact .inr ⟨heq.symm, fun hlegacy => (hread (heq ▸ hlegacy)).symm⟩

lemma simulates_declare (h : SameStrategies (requestInput first resourceIdFromPath) (requestInput second resourceIdFromPath))
    (hi : Interchangeable (tenantOf header) (requestInput first resourceIdFromPath) (requestInput second resourceIdFromPath)) :
    SimulatesCall (RouteOp.exec getTime) schema.answers SameWarehouse Eq
      (declare service header first resourceIdFromPath nowIso actorEmail existing)
      (declare service header second resourceIdFromPath nowIso actorEmail existing) := by
  unfold declare
  dsimp only
  split
  · exact .pure rfl
  · by_cases hv : declarationErrors (requestInput first resourceIdFromPath) (tenantOf header) = []
    · obtain ⟨hv', hread⟩ := hi.valid h hv
      rw [buildManualEntry_accepts hv, buildManualEntry_accepts hv']
      refine simulates_submit h.reencoded (refusedAsView_eq ?_ ?_)
      · exact (congrArg (fun input => (manualEntry input (tenantOf header) nowIso existing actorEmail).resourceId) h.rest :)
      · rw [legacy_inPlace_iff, legacy_inPlace_iff, hread]
    · have hv' : declarationErrors (requestInput second resourceIdFromPath) (tenantOf header) ≠ [] :=
        fun hv' => hv ((hi.symm h).valid h.symm hv').1
      obtain ⟨errors, he⟩ := buildManualEntry_refuses hv
      obtain ⟨errors', he'⟩ := buildManualEntry_refuses hv'
      rw [he, he']
      exact .pure rfl

lemma upsert_simulates (h : SameStrategies (requestInput first resourceIdFromPath) (requestInput second resourceIdFromPath))
    (hi : Interchangeable (tenantOf header) (requestInput first resourceIdFromPath) (requestInput second resourceIdFromPath))
    {reply : Except RouteError Reply} {t : World}
    (hr : Runs (RouteOp.exec getTime) schema.answers
      (PiiRegistry.upsert service header first resourceIdFromPath nowIso actorEmail).run s reply t) :
    ∃ t, Runs (RouteOp.exec getTime) schema.answers
      (PiiRegistry.upsert service header second resourceIdFromPath nowIso actorEmail).run s reply t := by
  have hid : (requestInput first resourceIdFromPath).resourceId = (requestInput second resourceIdFromPath).resourceId :=
    (congrArg PiiRegistryDeclarationInput.resourceId h.rest :)
  rw [upsert_eq, hid] at hr
  rw [upsert_eq]
  obtain ⟨found, u, hfind, hr⟩ := runs_bind_iff.mp hr
  cases found with
  | error e =>
    obtain ⟨rfl, rfl⟩ := hr
    exact ⟨u, runs_bind_iff.mpr ⟨.error e, u, hfind, rfl, rfl⟩⟩
  | ok existing =>
    obtain ⟨reply', t', hr', hsame, -⟩ := simulates_declare h hi u u reply t rfl hr
    have heq : reply = reply' := by
      cases reply <;> cases reply' <;> simp only [OnOk] at hsame <;> rw [hsame]
    exact ⟨t', runs_bind_iff.mpr ⟨.ok existing, u, hfind, heq ▸ hr'⟩⟩

end Requests

section Differences

variable {getTime : String → Option ℤ} {schema : SchemaSource} {service : SourceRedactionService}
  {header resourceIdFromPath : Option String} {body first second : PiiRegistryDeclarationInput} {nowIso : String}
  {actorEmail : Option String} {tenantId : String} {s : World} {entry : PiiRegistryEntry} {status : ℕ}

def bareWorld : World := ⟨⟨.empty, ∅⟩, ∅⟩

def unsaved : Reply := ⟨500, none, none⟩

lemma runs_existingEntry (resourceId : Option String) (tenantId : String) :
    Runs (RouteOp.exec getTime) schema.answers (existingEntry resourceId tenantId).run bareWorld (.ok none) bareWorld := by
  rw [existingEntry]
  split
  · exact ⟨.done, .ok none, bareWorld, trivial, rfl, rfl, rfl⟩
  · exact ⟨rfl, rfl⟩

lemma runs_refusedAsView (hread : (entry.sourceRedactionStrategy = some .redactInPlace ∧ entry.system = .bigquery) →
    schema.tableType = none) :
    Runs (RouteOp.exec getTime) schema.answers (refusedAsView entry).run s (.ok false) s := by
  rw [refusedAsView]
  split
  · rename_i hasked
    refine ⟨.failed, .error (.external 503), s, ?_, rfl, rfl, rfl⟩
    simp [SchemaSource.answers, hread hasked]
  · exact ⟨rfl, rfl⟩

lemma runs_refusedForColumns (hcolumns : schema.columns = none) :
    Runs (RouteOp.exec getTime) schema.answers (refusedForColumns entry).run s (.ok false) s := by
  rw [refusedForColumns]
  split
  · refine ⟨.failed, .error (.external 503), s, ?_, rfl, rfl, rfl⟩
    simp [SchemaSource.answers, hcolumns]
  · exact ⟨rfl, rfl⟩

/-- The store is down. -/
lemma runs_persist (hmanual : entry.isManual = true) (htenant : truthy entry.tenantId = some tenantId) :
    Runs (RouteOp.exec getTime) schema.answers (persist service entry status).run s (.ok unsaved) s := by
  rw [persist, PiiRegistryService.upsertEntry]
  rw [if_pos hmanual, htenant]
  exact ⟨.store .failed, .error (.registry unavailable), s, trivial, rfl, rfl, rfl⟩

/-- What passes the checks gets as far as the store. -/
lemma runs_upsert (hv : declarationErrors (requestInput body resourceIdFromPath) (tenantOf header) = [])
    (hread : readAsInPlace (requestInput body resourceIdFromPath) = true → schema.tableType = none)
    (hcolumns : schema.columns = none) :
    Runs (RouteOp.exec getTime) schema.answers
      (PiiRegistry.upsert service header body resourceIdFromPath nowIso actorEmail).run bareWorld (.ok unsaved)
      bareWorld := by
  rw [upsert_eq]
  refine runs_bind_of (runs_existingEntry _ _) ?_
  rw [declare, buildManualEntry_accepts hv]
  simp only [Option.any_none, Bool.and_false, Bool.false_eq_true, if_false]
  refine runs_bind_of (runs_refusedAsView fun h => hread (legacy_inPlace_iff.mp h)) ?_
  refine runs_bind_of (runs_refusedForColumns hcolumns) ?_
  exact runs_persist rfl (truthy_eq_some_iff.mpr ⟨rfl, tenantOf_ne header⟩)

lemma must_refuse_view (hread : entry.sourceRedactionStrategy = some .redactInPlace ∧ entry.system = .bigquery)
    (hview : schema.tableType = some (some "VIEW")) :
    MustCall (RouteOp.exec getTime) schema.answers (refusedAsView entry) s (fun isView _ => isView = true) fun _ _ => False := by
  rw [refusedAsView]
  rw [if_pos hread]
  refine .bind (.tryCatch (.perform ?_ ?_))
  · rintro answer kind t ha he
    simp only [SchemaSource.answers, hview] at ha
    obtain rfl := ha
    obtain ⟨hkind, rfl⟩ := Prod.mk.inj (Option.some.inj he)
    obtain rfl : some "VIEW" = kind := Except.ok.inj hkind
    exact .pure rfl
  · rintro answer e t ha he
    simp only [SchemaSource.answers, hview] at ha
    obtain rfl := ha
    cases he

/-- What a check refuses never gets there. -/
lemma must_upsert_refuse
    (h : declarationErrors (requestInput body resourceIdFromPath) (tenantOf header) ≠ [] ∨
      readAsInPlace (requestInput body resourceIdFromPath) = true ∧ schema.tableType = some (some "VIEW")) :
    MustCall (RouteOp.exec getTime) schema.answers
      (PiiRegistry.upsert service header body resourceIdFromPath nowIso actorEmail) s
      (fun reply _ => reply ≠ unsaved) fun _ _ => False := by
  rw [upsert_eq]
  refine .bind (must_existingEntry fun existing => ?_)
  unfold declare
  dsimp only
  split
  · exact .pure (by simp [unsaved])
  · split
    · exact .pure (by simp [unsaved])
    · rename_i entry hbuilt
      obtain ⟨hv, rfl⟩ := accepted hbuilt
      rcases h with hinvalid | ⟨hread, hview⟩
      · exact absurd hv hinvalid
      · refine .bind (.mono (must_refuse_view (legacy_inPlace_iff.mpr hread) hview) ?_ fun _ _ => False.elim)
        rintro isView t rfl
        exact .pure (by simp [unsaved])

lemma distinguished (hv : declarationErrors (requestInput first resourceIdFromPath) (tenantOf header) = [])
    (hother : declarationErrors (requestInput second resourceIdFromPath) (tenantOf header) ≠ [] ∨
      readAsInPlace (requestInput first resourceIdFromPath) = false ∧
        readAsInPlace (requestInput second resourceIdFromPath) = true) :
    ¬ SameDecision header resourceIdFromPath first second := by
  intro hsame
  let schema : SchemaSource :=
    { tableType := if readAsInPlace (requestInput first resourceIdFromPath) then none else some (some "VIEW") }
  have hread : readAsInPlace (requestInput first resourceIdFromPath) = true → schema.tableType = none := fun h => if_pos h
  obtain ⟨t, ht⟩ := (hsame ⟨none, none⟩ "" none (fun _ => none) schema bareWorld (.ok unsaved)).mp
    ⟨bareWorld, runs_upsert hv hread rfl⟩
  refine must_upsert_refuse ?_ _ t ht rfl
  rcases hother with hinvalid | ⟨hfirst, hsecond⟩
  · exact .inl hinvalid
  · exact .inr ⟨hsecond, if_neg (by simp [hfirst])⟩

lemma SameDecision.symm (h : SameDecision header resourceIdFromPath first second) :
    SameDecision header resourceIdFromPath second first :=
  fun service nowIso actorEmail getTime schema s reply => (h service nowIso actorEmail getTime schema s reply).symm

lemma interchangeable_of_sameDecision
    (h : SameStrategies (requestInput first resourceIdFromPath) (requestInput second resourceIdFromPath))
    (hsame : SameDecision header resourceIdFromPath first second) :
    Interchangeable (tenantOf header) (requestInput first resourceIdFromPath) (requestInput second resourceIdFromPath) := by
  by_cases harray : declarationErrors (inArrayForm (requestInput first resourceIdFromPath)) (tenantOf header) = []
  · have harray' := h.arrayForm_iff.mp harray
    have hvalid : ∀ {body}, declarationErrors (inArrayForm body) (tenantOf header) = [] →
        (declarationErrors body (tenantOf header) = [] ↔ legacyAccepted body = true) :=
      fun ha => errors_eq_nil_iff.trans (and_iff_right ha)
    refine .inr ⟨?_, fun hlegacy => ?_⟩
    · rw [Bool.eq_iff_iff, ← hvalid harray, ← hvalid harray']
      constructor
      · intro hv
        by_contra hinvalid
        exact distinguished hv (.inl hinvalid) hsame
      · intro hv
        by_contra hinvalid
        exact distinguished hv (.inl hinvalid) hsame.symm
    · have hv := (hvalid harray).mpr hlegacy
      by_cases hv' : declarationErrors (requestInput second resourceIdFromPath) (tenantOf header) = []
      · rw [Bool.eq_iff_iff]
        constructor
        · intro hread
          by_contra hother
          exact distinguished hv' (.inr ⟨Bool.eq_false_iff.mpr hother, hread⟩) hsame.symm
        · intro hread
          by_contra hother
          exact distinguished hv (.inr ⟨Bool.eq_false_iff.mpr hother, hread⟩) hsame
      · exact absurd hsame (distinguished hv (.inl hv'))
  · exact .inl harray

theorem encodings_mean_the_same_iff (header resourceIdFromPath : Option String) (h : SameStrategies first second) :
    (SameDecision header resourceIdFromPath first second ∧
      ∀ nowIso existing actorEmail entry entry',
        buildManualEntry (requestInput first resourceIdFromPath) (tenantOf header) nowIso existing actorEmail = .ok entry →
        buildManualEntry (requestInput second resourceIdFromPath) (tenantOf header) nowIso existing actorEmail = .ok entry' →
        TreatedAlike entry entry') ↔
    Interchangeable (tenantOf header) (requestInput first resourceIdFromPath) (requestInput second resourceIdFromPath) := by
  have hinput := h.requestInput resourceIdFromPath
  constructor
  · exact fun hsame => interchangeable_of_sameDecision hinput hsame.1
  · intro hi
    constructor
    · intro service nowIso actorEmail getTime schema s reply
      constructor
      · rintro ⟨t, hr⟩
        exact upsert_simulates hinput hi hr
      · rintro ⟨t, hr⟩
        exact upsert_simulates hinput.symm (hi.symm hinput) hr
    · intro nowIso existing actorEmail entry entry' hbuilt hbuilt'
      obtain ⟨-, rfl⟩ := accepted hbuilt
      obtain ⟨-, rfl⟩ := accepted hbuilt'
      exact hinput.reencoded.treatedAlike

def redactedUsers : PiiRegistryDeclarationInput := { usersDeclaration with userIdColumn := some "user_id" }

def redactedBy (legacy : Option String) (strategies : Option (List String)) : PiiRegistryDeclarationInput :=
  { redactedUsers with sourceRedactionStrategy := legacy, sourceRedactionStrategies := strategies }

theorem encodings_mean_the_same_shadowCopy :
    SameDecision none none (redactedBy (some "SHADOW_COPY") none) (redactedBy none (some ["SHADOW_COPY"])) := by
  have h : SameStrategies (redactedBy (some "SHADOW_COPY") none) (redactedBy none (some ["SHADOW_COPY"])) :=
    ⟨rfl, fun _ => Iff.rfl⟩
  exact ((encodings_mean_the_same_iff none none h).mpr (.inr ⟨rfl, fun _ => rfl⟩)).1

def overView : SchemaSource := { tableType := some (some "VIEW") }

instance (schema : SchemaSource) (s : World) (op : RouteOp) (answer : Answer) : Decidable (schema.answers s op answer) := by
  cases op <;> unfold SchemaSource.answers <;> infer_instance

def declaredOver (schema : SchemaSource) (body : PiiRegistryDeclarationInput) (answers : List Answer) (status : ℕ) : Bool :=
  (play (RouteOp.exec fun _ => none) schema.answers
    (PiiRegistry.upsert ⟨none, none⟩ none body none "2026-01-01T00:00:00.000Z" none).run answers bareWorld).any
      fun result => match result.1 with
        | .ok reply => reply.status == status
        | .error _ => false

lemma exists_reply {body : PiiRegistryDeclarationInput} {answers : List Answer} (h : declaredOver schema body answers status = true) :
    ∃ reply t, reply.status = status ∧ Runs (RouteOp.exec fun _ => none) schema.answers
      (PiiRegistry.upsert ⟨none, none⟩ none body none "2026-01-01T00:00:00.000Z" none).run bareWorld (.ok reply) t := by
  obtain ⟨⟨result, t⟩, hplay, hstatus⟩ := (Option.any_eq_true _ _).mp h
  cases result with
  | error e => cases hstatus
  | ok reply => exact ⟨reply, t, eq_of_beq hstatus, runs_of_play hplay⟩

/-- Over a view, the old encoding is refused and the new one is saved. -/
theorem view_declared_by_array : ∃ first second, SameStrategies first second ∧
    requestedSourceRedactionStrategies first = requestedSourceRedactionStrategies second ∧
    (∃ reply t, reply.status = 400 ∧ Runs (RouteOp.exec fun _ => none) overView.answers
      (PiiRegistry.upsert ⟨none, none⟩ none first none "2026-01-01T00:00:00.000Z" none).run bareWorld (.ok reply) t) ∧
    (∃ reply t, reply.status = 201 ∧ Runs (RouteOp.exec fun _ => none) overView.answers
      (PiiRegistry.upsert ⟨none, none⟩ none second none "2026-01-01T00:00:00.000Z" none).run bareWorld (.ok reply) t) ∧
    ¬ SameDecision none none first second := by
  refine ⟨redactedBy (some "REDACT_IN_PLACE") none, redactedBy none (some ["REDACT_IN_PLACE"]), ⟨rfl, fun _ => Iff.rfl⟩,
    rfl, ?_, ?_, ?_⟩
  · exact exists_reply (show declaredOver _ _ [.done, .tableType (some "VIEW")] _ = true by decide +kernel)
  · exact exists_reply (show declaredOver _ _ [.done, .failed, .store .done, .store .done, .done] _ = true by decide +kernel)
  · exact fun hsame => distinguished (by decide +kernel) (.inr ⟨rfl, rfl⟩) hsame.symm

end Differences

end ChameleonVault.PiiRegistry
