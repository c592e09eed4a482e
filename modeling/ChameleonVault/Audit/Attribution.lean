import ChameleonVault.Audit.Events
import ChameleonVault.Concurrency.Replies
import ChameleonVault.PiiRegistry.EncodedRequests
import ChameleonVault.PiiRegistry.Isolation

/-! Whom the registry's entries name, after any requests of any tenants, whatever their writes came to. -/

namespace ChameleonVault.Audit

open Concurrency Collections Encoding
open KeyRegistry (Date truthy truthy_eq_some_iff)
open PiiRegistry

section Requests

/-- The routes that write entries, each with the time that it reads and who sent it. -/
inductive Request where
  | upsert (header : Option String) (body : PiiRegistryDeclarationInput) (resourceIdFromPath : Option String)
      (now : Date) (actorEmail : Option String)
  | remove (header : Option String) (resourceId : String)
  | mark (mark : SyncMark) (header : Option String) (resourceId : String) (candidateIso : Option String)

/-- `POST /pii-registry/resources/:resourceId/mark-synced` and `…/mark-sync-attempted` -/
def markRoute (getTime : String → Option ℤ) (mark : SyncMark) (header : Option String) (resourceId : String)
    (candidateIso : Option String) : Route PiiRegistry.Reply :=
  match (truthy candidateIso).filter fun candidateIso => (getTime candidateIso).isSome with
  | none => return ⟨400, none, none⟩
  | some candidateIso => tryCatch (do
      let updated ← call (PiiRegistryService.markResource mark resourceId (tenantOf header) candidateIso)
      return ⟨if updated.isSome then 200 else 404, none, none⟩) fun error => return failure error

abbrev Answered := Except RouteError PiiRegistry.Reply

variable (service : SourceRedactionService) (getTime : String → Option ℤ)

def Request.reply : Request → Route PiiRegistry.Reply
  | .upsert header body resourceIdFromPath now actorEmail =>
    PiiRegistry.upsert service header body resourceIdFromPath (IsoDate.toISOString now) actorEmail
  | .remove header resourceId => PiiRegistry.remove header resourceId
  | .mark m header resourceId candidateIso => markRoute getTime m header resourceId candidateIso

def Request.tenantId : Request → String
  | .upsert header _ _ _ _ => tenantOf header
  | .remove header _ => tenantOf header
  | .mark _ header _ _ => tenantOf header

def Request.resourceId : Request → String
  | .upsert _ body resourceIdFromPath _ _ => (requestInput body resourceIdFromPath).resourceId.getD ""
  | .remove _ resourceId => resourceId
  | .mark _ _ resourceId _ => resourceId

/-- Requests to a deployment that starts with the platform's entries and no declarations, however the store answers. -/
abbrev Audited (p : Platform) (replies : List (Request × Answered)) (t : World) : Prop :=
  Replied (RouteOp.exec getTime) (fun request => (request.reply service getTime).run) (fun _ _ _ => True)
    ⟨p.boot ∅, ∅⟩ replies t

end Requests

section Writings

/-- A declaration that was written: when, and by whom where that is known. -/
structure Writing where
  now : Date
  actorEmail : Option String
  deriving DecidableEq

def sent (statuses : List ℕ) : Answered → Bool
  | .ok reply => reply.status ∈ statuses
  | .error _ => false

def record (tenantId resourceId : String) (writings : List Writing) (request : Request) (reply : Answered) :
    List Writing :=
  if request.tenantId = tenantId ∧ request.resourceId = resourceId then
    match request with
    | .upsert _ _ _ now actorEmail => if sent [200, 201] reply then writings ++ [⟨now, actorEmail⟩] else writings
    | .remove _ _ => if sent [200] reply then [] else writings
    | .mark _ _ _ _ => writings
  else writings

/-- What was written to the tenant's resource since it was removed last, as the replies tell. -/
def writings (tenantId resourceId : String) (replies : List (Request × Answered)) : List Writing :=
  replies.foldl (fun writings reply => record tenantId resourceId writings reply.1 reply.2) []

/-- What can be told of the writings: who is first known to have written, as of the first of them, and the last one. -/
def trail (tenantId resourceId : String) (writings : List Writing) : List AuditEvent :=
  let event (type : AuditEventType) (actorEmail : String) (now : Date) : AuditEvent :=
    ⟨type, resourceId, actorEmail, some tenantId, IsoDate.toISOString now⟩
  let declared := do
    let actorEmail ← truthy (writings.findSome? Writing.actorEmail)
    let first ← writings.head?
    return event .piiRegistryDeclared actorEmail first.now
  let modified := do
    let last ← writings.getLast?
    let actorEmail ← truthy last.actorEmail
    if writings.head?.map Writing.now = some last.now then none
    else return event .piiRegistryModified actorEmail last.now
  declared.toList ++ modified.toList

structure Attributed (tenantId resourceId : String) (writings : List Writing) (entry : PiiRegistryEntry) : Prop where
  tenantId : entry.tenantId = some tenantId
  resourceId : entry.resourceId = resourceId
  written : writings ≠ []
  createdAt : entry.createdAt = writings.head?.map fun writing => IsoDate.toISOString writing.now
  updatedAt : entry.updatedAt = writings.getLast?.map fun writing => IsoDate.toISOString writing.now
  declaredBy : entry.declaredBy = writings.findSome? Writing.actorEmail
  lastModifiedBy : entry.lastModifiedBy = writings.getLast?.bind Writing.actorEmail

def Recorded (tenantId resourceId : String) (writings : List Writing) : Option PiiRegistryEntry → Prop
  | none => writings = []
  | some entry => Attributed tenantId resourceId writings entry

/-- Nobody declared the platform's entries. -/
def Unattributed (p : Platform) : Prop :=
  ∀ entry ∈ p.connectorEntries ++ p.dbtEntries, entry.createdAt = none ∧ entry.declaredBy = none ∧
    entry.lastModifiedBy = none

structure Told (p : Platform) (replies : List (Request × Answered)) (s : World) : Prop where
  keyed : KeyedEntries s.registry.entries
  shared (resourceId : String) :
    s.registry.entries.get? (keyOf none resourceId) = (p.startup ∅).get? (keyOf none resourceId)
  own (tenantId resourceId : String) : Plain tenantId → Recorded tenantId resourceId
    (writings tenantId resourceId replies) (s.registry.entries.get? (keyOf (some tenantId) resourceId))

end Writings

section Entries

variable {entry : PiiRegistryEntry} {actorFilter : Option String} {tenantId resourceId : String} {ws : List Writing}
  {event : AuditEvent}

lemma truthy_toISOString (date : ℕ) : truthy (some (IsoDate.toISOString date)) = some (IsoDate.toISOString date) := by
  refine truthy_eq_some_iff.mpr ⟨rfl, fun h => ?_⟩
  have hlength := congrArg String.length h
  simp [IsoDate.toISOString] at hlength

lemma eventsForRegistryEntry_eq (entry : PiiRegistryEntry) (actorFilter : Option String) :
    eventsForRegistryEntry entry actorFilter =
      (eventsForRegistryEntry entry none).filter fun event => passes actorFilter event.actorEmail := by
  have hall (email : String) : passes none email = true := rfl
  rw [eventsForRegistryEntry, eventsForRegistryEntry, List.filter_append]
  congr 1
  · cases truthy entry.declaredBy with
    | none => rfl
    | some actorEmail =>
      cases truthy entry.createdAt <;> by_cases hpass : passes actorFilter actorEmail = true <;>
        simp [Option.filter, hall, hpass]
  · cases truthy entry.lastModifiedBy with
    | none => rfl
    | some actorEmail =>
      cases (truthy entry.updatedAt).filter fun updatedAt => some updatedAt ≠ entry.createdAt <;>
        by_cases hpass : passes actorFilter actorEmail = true <;> simp [Option.filter, hall, hpass]

lemma Attributed.events (h : Attributed tenantId resourceId ws entry) :
    eventsForRegistryEntry entry none = trail tenantId resourceId ws := by
  obtain ⟨first, hfirst⟩ := Option.ne_none_iff_exists'.mp (mt List.head?_eq_none_iff.mp h.written)
  obtain ⟨last, hlast⟩ := Option.ne_none_iff_exists'.mp (mt List.getLast?_eq_none_iff.mp h.written)
  have hpass (actor : Option String) : actor.filter (passes none) = actor := by cases actor <;> rfl
  rw [eventsForRegistryEntry, trail]
  congr 1
  · simp only [h.declaredBy, h.createdAt, hfirst, hpass, h.resourceId, h.tenantId, Option.map_some, truthy_toISOString,
      Option.bind_eq_bind, Option.bind_some]
  · simp only [h.lastModifiedBy, h.createdAt, h.updatedAt, hfirst, hlast, hpass, h.resourceId, h.tenantId,
      Option.map_some, Option.bind_eq_bind, Option.bind_some, truthy_toISOString, Option.some.injEq]
    cases truthy last.actorEmail with
    | none => simp
    | some actorEmail =>
      by_cases hnow : first.now = last.now
      · simp [Option.filter, hnow]
      · have hne : IsoDate.toISOString last.now ≠ IsoDate.toISOString first.now :=
          fun he => hnow (IsoDate.toISOString_injective he).symm
        simp [Option.filter, hnow, hne]

end Entries

section Keys

variable {tenantId tenantId' resourceId resourceId' : String}

lemma keyOf_plain_inj (h : Plain tenantId) (h' : Plain tenantId')
    (hk : keyOf (some tenantId) resourceId = keyOf (some tenantId') resourceId') :
    tenantId = tenantId' ∧ resourceId = resourceId' := by
  have hscope : some tenantId = some tenantId' := eq_of_keyOf_eq (by rintro _ ⟨⟩; exact h) (by rintro _ ⟨⟩; exact h') hk
  obtain rfl := Option.some.inj hscope
  have hl := congrArg String.toList hk
  simp only [keyOf, String.toList_append] at hl
  exact ⟨rfl, String.toList_inj.mp (List.append_cancel_left hl)⟩

lemma keyOf_none_ne (h : Plain tenantId) : keyOf none resourceId ≠ keyOf (some tenantId) resourceId' := by
  intro hk
  have hscope : none = some tenantId := eq_of_keyOf_eq (by rintro _ ⟨⟩) (by rintro _ ⟨⟩; exact h) hk
  cases hscope

lemma get?_startup_plain {p : Platform} (hp : p.Wide) (h : Plain tenantId) :
    (p.startup ∅).get? (keyOf (some tenantId) resourceId) = none := by
  refine Option.eq_none_iff_forall_not_mem.mpr fun entry hget => ?_
  have hkey : entry.key = keyOf (some tenantId) resourceId := keyed_serve _ _ _ hget
  rcases mem_startup (OrderedMap.mem_values.mpr ⟨_, hget⟩) with hm | ⟨id, hl, -⟩
  · rw [PiiRegistryEntry.key, (hp entry hm).2] at hkey
    exact keyOf_none_ne h hkey
  · cases hl

lemma get?_startup_unattributed {p : Platform} (hp : Unattributed p) {entry : PiiRegistryEntry} {key : String}
    (hget : (p.startup ∅).get? key = some entry) :
    entry.createdAt = none ∧ entry.declaredBy = none ∧ entry.lastModifiedBy = none := by
  rcases mem_startup (OrderedMap.mem_values.mpr ⟨_, hget⟩) with hm | ⟨id, hl, -⟩
  · exact hp entry hm
  · cases hl

end Keys

section Steps

variable {p : Platform} {replies : List (Request × Answered)} {s t : World} {request : Request} {reply : Answered}
  {tenantId resourceId : String} {entry : PiiRegistryEntry} {ws : List Writing}

lemma writings_concat : writings tenantId resourceId (replies ++ [(request, reply)]) =
    record tenantId resourceId (writings tenantId resourceId replies) request reply := by
  simp [writings]

lemma record_of_ne (h : ¬(request.tenantId = tenantId ∧ request.resourceId = resourceId)) :
    record tenantId resourceId ws request reply = ws := if_neg h

lemma told_start (hp : p.Wide) : Told p [] ⟨p.boot ∅, ∅⟩ := by
  refine ⟨keyed_serve _, fun _ => rfl, fun tenantId resourceId ht => ?_⟩
  have hnone : (p.boot ∅).entries.get? (keyOf (some tenantId) resourceId) = none := get?_startup_plain hp ht
  rw [hnone]
  rfl

lemma Told.same (h : Told p replies s) (hentries : t.registry.entries = s.registry.entries)
    (hrecord : ∀ ws, record request.tenantId request.resourceId ws request reply = ws) :
    Told p (replies ++ [(request, reply)]) t := by
  refine ⟨hentries ▸ h.keyed, fun resourceId => hentries ▸ h.shared resourceId, fun tenantId resourceId ht => ?_⟩
  have hws : record tenantId resourceId (writings tenantId resourceId replies) request reply =
      writings tenantId resourceId replies := by
    by_cases hsame : request.tenantId = tenantId ∧ request.resourceId = resourceId
    · obtain ⟨rfl, rfl⟩ := hsame
      exact hrecord _
    · exact record_of_ne hsame
  rw [writings_concat, hws, hentries]
  exact h.own tenantId resourceId ht

/-- Only the request's own entry is another one, and it is what the reply records. -/
lemma Told.change (h : Told p replies s) (ht : Plain request.tenantId)
    (hkeyed : KeyedEntries t.registry.entries)
    (hother : ∀ key, key ≠ keyOf (some request.tenantId) request.resourceId →
      t.registry.entries.get? key = s.registry.entries.get? key)
    (hown : Recorded request.tenantId request.resourceId
      (record request.tenantId request.resourceId (writings request.tenantId request.resourceId replies) request reply)
      (t.registry.entries.get? (keyOf (some request.tenantId) request.resourceId))) :
    Told p (replies ++ [(request, reply)]) t := by
  refine ⟨hkeyed, fun resourceId => ?_, fun tenantId resourceId ht' => ?_⟩
  · rw [hother _ (keyOf_none_ne ht)]
    exact h.shared resourceId
  · rw [writings_concat]
    by_cases hsame : request.tenantId = tenantId ∧ request.resourceId = resourceId
    · obtain ⟨rfl, rfl⟩ := hsame
      exact hown
    · rw [record_of_ne hsame, hother _ fun hk => hsame ?_]
      · exact h.own tenantId resourceId ht'
      · obtain ⟨htenant, hresource⟩ := keyOf_plain_inj ht' ht hk
        exact ⟨htenant.symm, hresource.symm⟩

lemma Told.set (h : Told p replies s) (ht : Plain request.tenantId)
    (hentries : t.registry.entries =
      s.registry.entries.set (keyOf (some request.tenantId) request.resourceId) entry)
    (hattributed : Attributed request.tenantId request.resourceId
      (record request.tenantId request.resourceId (writings request.tenantId request.resourceId replies) request reply)
      entry) : Told p (replies ++ [(request, reply)]) t := by
  have hkey : entry.key = keyOf (some request.tenantId) request.resourceId := by
    rw [PiiRegistryEntry.key, hattributed.tenantId, hattributed.resourceId]
  refine h.change ht (fun key entry' hget => ?_) (fun key hne => ?_) ?_
  · rw [hentries, OrderedMap.get?_set] at hget
    split at hget
    · rename_i heq
      rw [← Option.some.inj hget, hkey, heq]
    · exact h.keyed key entry' hget
  · rw [hentries, OrderedMap.get?_set_ne hne]
  · rw [hentries, OrderedMap.get?_set_self]
    exact hattributed

lemma Told.erase (h : Told p replies s) (ht : Plain request.tenantId)
    (hentries : t.registry.entries = s.registry.entries.erase (keyOf (some request.tenantId) request.resourceId))
    (hnone : ∀ ws, record request.tenantId request.resourceId ws request reply = []) :
    Told p (replies ++ [(request, reply)]) t := by
  refine h.change ht (fun key entry hget => ?_) (fun key hne => ?_) ?_
  · by_cases hk : key = keyOf (some request.tenantId) request.resourceId
    · rw [hentries, hk, OrderedMap.get?_erase_self] at hget
      cases hget
    · rw [hentries, OrderedMap.get?_erase_ne hk] at hget
      exact h.keyed key entry hget
  · rw [hentries, OrderedMap.get?_erase_ne hne]
  · rw [hentries, OrderedMap.get?_erase_self, hnone]
    rfl

lemma Told.existing (h : Told p replies s) (hp : Unattributed p) (ht : Plain tenantId) {existing : Option PiiRegistryEntry}
    (hexisting : existing = getEntry resourceId (some tenantId) s.registry) :
    existing.bind PiiRegistryEntry.createdAt =
        (writings tenantId resourceId replies).head?.map (fun writing => IsoDate.toISOString writing.now) ∧
      existing.bind PiiRegistryEntry.declaredBy = (writings tenantId resourceId replies).findSome? Writing.actorEmail := by
  have hown := h.own tenantId resourceId ht
  have hget : existing = (s.registry.entries.get? (keyOf (some tenantId) resourceId)).or
      (s.registry.entries.get? (keyOf none resourceId)) := hexisting
  cases hcase : s.registry.entries.get? (keyOf (some tenantId) resourceId) with
  | some entry =>
    rw [hcase] at hown hget
    have hattributed : Attributed tenantId resourceId (writings tenantId resourceId replies) entry := hown
    rw [hget]
    exact ⟨hattributed.createdAt, hattributed.declaredBy⟩
  | none =>
    rw [hcase] at hown hget
    have hnil : writings tenantId resourceId replies = [] := hown
    rw [hnil, hget, Option.none_or, h.shared]
    cases hshared : (p.startup ∅).get? (keyOf none resourceId) with
    | none => exact ⟨rfl, rfl⟩
    | some entry =>
      obtain ⟨hcreated, hdeclared, -⟩ := get?_startup_unattributed hp hshared
      exact ⟨hcreated, hdeclared⟩

lemma attributed_manualEntry {input : PiiRegistryDeclarationInput} {existing : Option PiiRegistryEntry} {now : Date}
    {actorEmail : Option String}
    (hcreated : existing.bind PiiRegistryEntry.createdAt = ws.head?.map fun writing => IsoDate.toISOString writing.now)
    (hdeclared : existing.bind PiiRegistryEntry.declaredBy = ws.findSome? Writing.actorEmail) :
    Attributed tenantId (input.resourceId.getD "") (ws ++ [⟨now, actorEmail⟩])
      (manualEntry input tenantId (IsoDate.toISOString now) existing actorEmail) where
  tenantId := rfl
  resourceId := rfl
  written := List.append_ne_nil_of_right_ne_nil _ (List.cons_ne_nil _ _)
  createdAt := by
    have hentry : (manualEntry input tenantId (IsoDate.toISOString now) existing actorEmail).createdAt =
        some ((existing.bind PiiRegistryEntry.createdAt).getD (IsoDate.toISOString now)) := rfl
    rw [hentry, hcreated]
    cases ws <;> rfl
  updatedAt := by
    rw [List.getLast?_concat]
    rfl
  declaredBy := by
    have hentry : (manualEntry input tenantId (IsoDate.toISOString now) existing actorEmail).declaredBy =
        (existing.bind PiiRegistryEntry.declaredBy).or actorEmail := rfl
    rw [hentry, hdeclared, List.findSome?_append]
    cases ws.findSome? Writing.actorEmail <;> simp
  lastModifiedBy := by
    rw [List.getLast?_concat]
    rfl

lemma Attributed.write (h : Attributed tenantId resourceId ws entry) (mark : SyncMark) (stored : String) :
    Attributed tenantId resourceId ws (mark.write stored entry) := by
  obtain ⟨htenant, hresource, hwritten, hcreated, hupdated, hdeclared, hmodified⟩ := h
  cases mark <;> exact ⟨htenant, hresource, hwritten, hcreated, hupdated, hdeclared, hmodified⟩

end Steps

section Calls

variable {getTime : String → Option ℤ} {service : SourceRedactionService} {allowed : World → RouteOp → Answer → Prop}
  {s t : World} {entry : PiiRegistryEntry} {tenantId resourceId : String}

lemma beside_keeps {op : RouteOp} {answer : Answer} {reply : Except RouteError op.Res} (hop : BesideRegistry op)
    (hexec : op.exec getTime answer s = some (reply, t)) : t.registry = s.registry := by
  cases op with
  | warehouse op =>
    cases answer with
    | done =>
      simp only [RouteOp.exec] at hexec
      split at hexec
      · obtain ⟨-, rfl⟩ := Prod.mk.inj (Option.some.inj hexec)
        rfl
      · obtain ⟨-, rfl⟩ := Prod.mk.inj (Option.some.inj hexec)
        rfl
    | failed | store outcome | tableType kind | columns names => cases hexec
  | getTableType resourceId | getColumns resourceId =>
    cases answer <;> cases hexec
    all_goals rfl
  | registry op | find resourceId tenantId => exact hop.elim

lemma must_beside {α : Type} {x : Route α} (hx : x.run.Uses BesideRegistry) :
    MustCall (RouteOp.exec getTime) allowed x s (fun _ t => t.registry = s.registry)
      fun _ t => t.registry = s.registry :=
  .of_uses hx (fun _ _ _ _ _ hop _ hs hexec => (beside_keeps hop hexec).trans hs) rfl

lemma must_attempt_beside {x : Route Unit} (hx : x.run.Uses BesideRegistry) {err : RouteError → World → Prop} :
    MustCall (RouteOp.exec getTime) allowed (attempt x) s (fun _ t => t.registry = s.registry) err :=
  must_attempt ((must_beside hx).mono (fun _ _ ht _ => ht) fun _ _ ht _ => ht)

lemma must_maintainCopies {status : ℕ} {err : RouteError → World → Prop} :
    MustCall (RouteOp.exec getTime) allowed (maintainCopies service entry status) s
      (fun reply t => reply.status = status ∧ t.registry = s.registry) err := by
  refine .bind ((must_attempt_beside (uses_maintainShadowCopy entry)).mono (fun shadowCopyError t ht => ?_) fun _ _ => id)
  refine .bind ((must_attempt_beside (uses_maintainEncryptedCopy entry)).mono (fun encryptedCopyError u hu => ?_) fun _ _ => id)
  exact .pure ⟨rfl, hu.trans ht⟩

lemma must_upsertEntry_set {ok : PiiRegistryEntry → World → Prop} {err : RouteError → World → Prop}
    (hmanual : entry.isManual = true) (ht : truthy entry.tenantId = some tenantId)
    (hok : ∀ t : World, t.registry.entries = s.registry.entries.set (keyOf (some tenantId) entry.resourceId) entry →
      ok entry t)
    (herr : ∀ e (t : World), t.registry.entries = s.registry.entries → err e t) :
    MustCall (RouteOp.exec getTime) allowed (call (PiiRegistryService.upsertEntry entry)) s ok err := by
  rw [PiiRegistryService.upsertEntry]
  rw [if_pos hmanual, ht]
  refine must_call_bind (fun outcome _ registry _ hstore => ?_) fun outcome e registry _ hstore => ?_
  · obtain ⟨rfl, happly⟩ := runStore_ok (exec_upsert ▸ hstore)
    obtain rfl := (Prod.mk.inj (Except.ok.inj happly)).2
    refine must_call_bind (fun outcome _ registry _ hset => ?_) fun outcome e registry _ hset => ?_
    · obtain rfl := (Prod.mk.inj (Option.some.inj hset)).2
      exact must_call_pure (hok _ rfl)
    · cases (Prod.mk.inj (Option.some.inj hset)).1
  · rcases runStore_cases (exec_upsert ▸ hstore) with ⟨_, happly, -⟩ | ⟨rfl, -, -⟩
    · obtain rfl := (Prod.mk.inj (Except.ok.inj happly)).2
      exact herr _ _ rfl
    · exact herr _ _ rfl

lemma must_removeEntry_erase {ok : Bool → World → Prop} {err : RouteError → World → Prop}
    (hnone : ok false s)
    (hok : ∀ t : World, t.registry.entries = s.registry.entries.erase (keyOf (some tenantId) resourceId) → ok true t)
    (herr : ∀ e (t : World), t.registry.entries = s.registry.entries → err e t) :
    MustCall (RouteOp.exec getTime) allowed (call (PiiRegistryService.removeEntry resourceId tenantId)) s ok err := by
  rw [PiiRegistryService.removeEntry]
  refine must_call_bind (fun outcome existing registry _ hread => ?_) fun outcome e registry _ hread => ?_
  · obtain ⟨-, rfl⟩ := Prod.mk.inj (Option.some.inj hread)
    cases existing with
    | none => exact must_call_pure hnone
    | some existing =>
      simp only []
      split
      · refine must_call_bind (fun outcome _ registry _ hstore => ?_) fun outcome e registry _ hstore => ?_
        · obtain ⟨rfl, happly⟩ := runStore_ok (exec_delete ▸ hstore)
          obtain rfl := (Prod.mk.inj (Except.ok.inj happly)).2
          refine must_call_bind (fun outcome _ registry _ hset => ?_) fun outcome e registry _ hset => ?_
          · obtain rfl := (Prod.mk.inj (Option.some.inj hset)).2
            exact must_call_pure (hok _ rfl)
          · cases (Prod.mk.inj (Option.some.inj hset)).1
        · rcases runStore_cases (exec_delete ▸ hstore) with ⟨_, happly, -⟩ | ⟨rfl, -, -⟩
          · obtain rfl := (Prod.mk.inj (Except.ok.inj happly)).2
            exact herr _ _ rfl
          · exact herr _ _ rfl
      · exact must_call_throw (herr _ _ rfl)
  · cases (Prod.mk.inj (Option.some.inj hread)).1

lemma must_markResource {mark : SyncMark} {candidateIso : String} {ok : Option PiiRegistryEntry → World → Prop}
    {err : RouteError → World → Prop} (hnone : ok none s)
    (hok : ∀ existing stored (t : World), s.registry.entries.get? (keyOf (some tenantId) resourceId) = some existing →
      t.registry.entries = s.registry.entries.set (keyOf (some tenantId) resourceId) (mark.write stored existing) →
      ok (some (mark.write stored existing)) t)
    (herr : ∀ e (t : World), t.registry.entries = s.registry.entries → err e t) :
    MustCall (RouteOp.exec getTime) allowed
      (call (PiiRegistryService.markResource mark resourceId tenantId candidateIso)) s ok err := by
  rw [PiiRegistryService.markResource]
  refine must_call_bind (fun outcome existing registry _ hread => ?_) fun outcome e registry _ hread => ?_
  · obtain ⟨hreply, rfl⟩ := Prod.mk.inj (Option.some.inj hread)
    have hget : s.registry.entries.get? (keyOf (some tenantId) resourceId) = existing := Except.ok.inj hreply
    cases existing with
    | none => exact must_call_pure hnone
    | some existing =>
      simp only []
      split
      · have hentries {stored : String} {registry : Registry}
            (happly : s.registry.advance getTime mark tenantId resourceId candidateIso = .ok (stored, registry)) :
            registry.entries = s.registry.entries := by
          obtain ⟨document, -, ⟨-, -, rfl⟩ | ⟨-, -, rfl⟩⟩ := advance_cases happly <;> rfl
        refine must_call_bind (fun outcome stored registry _ hstore => ?_) fun outcome e registry _ hstore => ?_
        · obtain ⟨rfl, happly⟩ := runStore_ok (exec_advance ▸ hstore)
          refine must_call_bind (fun outcome _ registry' _ hset => ?_) fun outcome e registry' _ hset => ?_
          · obtain rfl := (Prod.mk.inj (Option.some.inj hset)).2
            refine must_call_pure (hok existing stored _ hget ?_)
            exact congrArg (fun entries => OrderedMap.set _ _ entries) (hentries happly)
          · cases (Prod.mk.inj (Option.some.inj hset)).1
        · rcases runStore_cases (exec_advance ▸ hstore) with ⟨stored, happly, -⟩ | ⟨rfl, -, -⟩
          · exact herr _ _ (hentries happly)
          · exact herr _ _ rfl
      · exact must_call_throw (herr _ _ rfl)
  · cases (Prod.mk.inj (Option.some.inj hread)).1

lemma resourceId_of_errors {input : PiiRegistryDeclarationInput} {tenantId : String}
    (h : declarationErrors input tenantId = []) : ∃ resourceId, truthy input.resourceId = some resourceId := by
  simp only [declarationErrors, List.append_eq_nil_iff] at h
  obtain ⟨⟨⟨⟨⟨⟨⟨⟨⟨⟨⟨⟨⟨-, hresource⟩, -⟩, -⟩, -⟩, -⟩, -⟩, -⟩, -⟩, -⟩, -⟩, -⟩, -⟩, -⟩ := h
  cases hr : input.resourceId with
  | none => simp [hr, resourceIdErrors, isNonEmptyString] at hresource
  | some resourceId =>
    refine ⟨resourceId, truthy_eq_some_iff.mpr ⟨rfl, ?_⟩⟩
    rintro rfl
    rw [hr] at hresource
    exact absurd hresource (by decide)

lemma failure_unsent (error : RouteError) : (failure error).status ≠ 200 ∧ (failure error).status ≠ 201 := by
  unfold PiiRegistry.failure
  split <;> decide

lemma must_persist {status : ℕ} (hmanual : entry.isManual = true) (ht : truthy entry.tenantId = some tenantId) :
    MustCall (RouteOp.exec getTime) allowed (persist service entry status) s
      (fun reply t => (t.registry.entries = s.registry.entries ∧ reply.status ≠ 200 ∧ reply.status ≠ 201) ∨
        reply.status = status ∧
          t.registry.entries = s.registry.entries.set (keyOf (some tenantId) entry.resourceId) entry)
      fun _ _ => False := by
  refine .tryCatch (.bind (must_upsertEntry_set hmanual ht (fun t hset => ?_) fun e t hsame => ?_))
  · refine must_maintainCopies.mono (fun reply u hu => .inr ⟨hu.1, ?_⟩) fun _ _ => id
    rw [hu.2, hset]
  · exact .pure (.inl ⟨hsame, failure_unsent e⟩)

/-- What a declaration writes: the entry that it is made into, when its reply says so, and nothing otherwise. -/
lemma must_declare {header : Option String} {body : PiiRegistryDeclarationInput} {resourceIdFromPath : Option String}
    {nowIso : String} {actorEmail : Option String} :
    MustCall (RouteOp.exec getTime) allowed (PiiRegistry.upsert service header body resourceIdFromPath nowIso actorEmail) s
      (fun reply t => (t.registry.entries = s.registry.entries ∧ reply.status ≠ 200 ∧ reply.status ≠ 201) ∨
        (reply.status = 200 ∨ reply.status = 201) ∧
          declarationErrors (requestInput body resourceIdFromPath) (tenantOf header) = [] ∧
          t.registry.entries = s.registry.entries.set
            (keyOf (some (tenantOf header)) ((requestInput body resourceIdFromPath).resourceId.getD ""))
            (manualEntry (requestInput body resourceIdFromPath) (tenantOf header) nowIso
              (getEntry ((requestInput body resourceIdFromPath).resourceId.getD "") (some (tenantOf header)) s.registry)
              actorEmail))
      fun _ _ => False := by
  have hfound : MustCall (RouteOp.exec getTime) allowed
      (existingEntry (requestInput body resourceIdFromPath).resourceId (tenantOf header)) s
      (fun existing t => t = s ∧ ((∃ resourceId, truthy (requestInput body resourceIdFromPath).resourceId = some resourceId) →
        existing = getEntry ((requestInput body resourceIdFromPath).resourceId.getD "") (some (tenantOf header)) s.registry))
      fun _ _ => False := by
    rw [existingEntry]
    split
    · rename_i resourceId hresource
      refine must_find ⟨rfl, fun _ => ?_⟩
      rw [(truthy_eq_some_iff.mp hresource).1]
      rfl
    · rename_i hnone
      refine .pure ⟨rfl, ?_⟩
      rintro ⟨resourceId, hresource⟩
      rw [hnone] at hresource
      cases hresource
  refine .bind (hfound.mono ?_ fun _ _ => id)
  rintro existing t ⟨rfl, hexisting⟩
  dsimp only
  split
  · exact .pure (.inl ⟨rfl, by decide⟩)
  · split
    · exact .pure (.inl ⟨rfl, by decide⟩)
    · rename_i entry hbuilt
      obtain ⟨herrors, rfl⟩ := accepted hbuilt
      have hexisting := hexisting (resourceId_of_errors herrors)
      have htenant : truthy (some (tenantOf header)) = some (tenantOf header) :=
        truthy_eq_some_iff.mpr ⟨rfl, tenantOf_ne header⟩
      rw [submit]
      refine .bind ((must_refusedAsView (P := fun u => u = t) rfl).mono ?_ fun _ _ => id)
      rintro isView u rfl
      split
      · exact .pure (.inl ⟨rfl, by decide⟩)
      · refine .bind ((must_refusedForColumns (P := fun t => t = u) rfl).mono ?_ fun _ _ => id)
        rintro lacksColumns t rfl
        split
        · exact .pure (.inl ⟨rfl, by decide⟩)
        · refine (must_persist rfl htenant).mono (fun reply u hwritten => ?_) fun _ _ => id
          rcases hwritten with hunwritten | ⟨hstatus, hset⟩
          · exact .inl hunwritten
          · refine .inr ⟨?_, herrors, ?_⟩
            · rw [hstatus]
              split
              · exact .inl rfl
              · exact .inr rfl
            · rw [hset, ← hexisting]
              rfl

end Calls

section Told

variable {getTime : String → Option ℤ} {service : SourceRedactionService} {allowed : World → RouteOp → Answer → Prop}
  {p : Platform} {replies : List (Request × Answered)} {s t : World} {request : Request} {header : Option String}
  {ws : List Writing} {reply : PiiRegistry.Reply}

lemma record_unsent (h : reply.status ≠ 200 ∧ reply.status ≠ 201) :
    record request.tenantId request.resourceId ws request (.ok reply) = ws := by
  unfold record
  rw [if_pos ⟨rfl, rfl⟩]
  cases request <;> simp [sent, h]

lemma Told.unsent (h : Told p replies s) (hentries : t.registry.entries = s.registry.entries)
    (hstatus : reply.status ≠ 200 ∧ reply.status ≠ 201) : Told p (replies ++ [(request, .ok reply)]) t :=
  h.same hentries fun _ => record_unsent hstatus

lemma Told.must_upsert (h : Told p replies s) (hp : Unattributed p) {body : PiiRegistryDeclarationInput}
    {resourceIdFromPath : Option String} {now : Date} {actorEmail : Option String} (ht : Plain (tenantOf header)) :
    MustCall (RouteOp.exec getTime) allowed
      (PiiRegistry.upsert service header body resourceIdFromPath (IsoDate.toISOString now) actorEmail) s
      (fun reply t => Told p (replies ++ [(.upsert header body resourceIdFromPath now actorEmail, .ok reply)]) t)
      fun _ _ => False := by
  refine must_declare.mono (fun reply t hwritten => ?_) fun _ _ => id
  rcases hwritten with ⟨hsame, hstatus⟩ | ⟨hstatus, -, hset⟩
  · exact h.unsent hsame hstatus
  · obtain ⟨hcreated, hdeclared⟩ := h.existing hp ht rfl
    refine h.set ht hset ?_
    have hsent : sent [200, 201] (.ok reply) = true := by simpa [sent] using hstatus
    rw [record, if_pos ⟨rfl, rfl⟩]
    simp only [hsent, if_true]
    exact attributed_manualEntry hcreated hdeclared

lemma Told.must_remove (h : Told p replies s) {resourceId : String} (ht : Plain (tenantOf header)) :
    MustCall (RouteOp.exec getTime) allowed (PiiRegistry.remove header resourceId) s
      (fun reply t => Told p (replies ++ [(.remove header resourceId, .ok reply)]) t) fun _ _ => False := by
  have herased {t : World} {reply : PiiRegistry.Reply} (hstatus : reply.status = 200)
      (hentries : t.registry.entries = s.registry.entries.erase (keyOf (some (tenantOf header)) resourceId)) :
      Told p (replies ++ [(.remove header resourceId, .ok reply)]) t := by
    refine h.erase ht hentries fun ws => ?_
    rw [record, if_pos ⟨rfl, rfl⟩]
    simp [sent, hstatus]
  refine .bind (must_find (.tryCatch (.bind (must_removeEntry_erase ?_ (fun t hentries => ?_) fun e t hsame => ?_))))
  · exact .pure (h.unsent rfl (by decide))
  · simp only [if_true]
    split
    · refine .bind ((must_attempt_beside (uses_dropShadowCopy _)).mono (fun error u hu => ?_) fun _ _ => id)
      exact .pure (herased rfl (hu ▸ hentries))
    · exact .pure (herased rfl hentries)
  · exact .pure (h.unsent hsame (failure_unsent e))

lemma Told.must_mark (h : Told p replies s) {mark : SyncMark} {resourceId : String} {candidateIso : Option String}
    (ht : Plain (tenantOf header)) :
    MustCall (RouteOp.exec getTime) allowed (markRoute getTime mark header resourceId candidateIso) s
      (fun reply t => Told p (replies ++ [(.mark mark header resourceId candidateIso, .ok reply)]) t) fun _ _ => False := by
  have hrecord (ws : List Writing) (reply : Answered) : record (tenantOf header) resourceId ws
      (.mark mark header resourceId candidateIso) reply = ws := by
    rw [record, if_pos ⟨rfl, rfl⟩]
  rw [markRoute]
  split
  · exact .pure (h.same rfl fun ws => hrecord ws _)
  · refine .tryCatch (.bind (must_markResource ?_ (fun existing stored t hget hentries => ?_) fun e t hsame => ?_))
    · exact .pure (h.same rfl fun ws => hrecord ws _)
    · refine .pure (h.set ht hentries ?_)
      have hown := h.own (tenantOf header) resourceId ht
      rw [hget] at hown
      have hattributed : Attributed (tenantOf header) resourceId (writings (tenantOf header) resourceId replies)
        existing := hown
      exact (hrecord _ _).symm ▸ hattributed.write mark stored
    · exact .pure (h.same hsame fun ws => hrecord ws _)

lemma Told.must_reply (h : Told p replies s) (hp : Unattributed p) (ht : Plain request.tenantId) :
    MustCall (RouteOp.exec getTime) allowed (request.reply service getTime) s
      (fun reply t => Told p (replies ++ [(request, .ok reply)]) t) fun _ _ => False := by
  cases request with
  | upsert header body resourceIdFromPath now actorEmail =>
    have hheader : Plain (tenantOf header) := ht
    simp only [Request.reply]
    exact h.must_upsert hp hheader
  | remove header resourceId =>
    have hheader : Plain (tenantOf header) := ht
    simp only [Request.reply]
    exact h.must_remove hheader
  | mark mark header resourceId candidateIso =>
    have hheader : Plain (tenantOf header) := ht
    simp only [Request.reply]
    exact h.must_mark hheader

lemma told_audited (hwide : p.Wide) (hp : Unattributed p) (h : Audited service getTime p replies t)
    (hplain : ∀ reply ∈ replies, Plain reply.1.tenantId) : Told p replies t := by
  have hcall : ∀ replies t (request : Request), Told p replies t → Plain request.tenantId →
      Must (RouteOp.exec getTime) (fun _ _ _ => True) (request.reply service getTime).run t
        fun reply => Told p (replies ++ [(request, reply)]) := by
    intro replies t request ht hg
    refine Must.mono (ht.must_reply hp hg) ?_
    rintro (e | reply) u hu
    · exact hu.elim
    · exact hu
  exact Replied.keeps hcall (told_start hwide) h hplain

end Told

end ChameleonVault.Audit
