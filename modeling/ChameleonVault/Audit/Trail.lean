import ChameleonVault.Audit.Attribution
import ChameleonVault.Deletion.Runs
import ChameleonVault.PiiRegistry.Composition

/-! The pages of the audit routes beside what was written, and by whom. -/

namespace ChameleonVault.Audit

open Collections Concurrency Encoding
open Deletion (Headers)
open KeyRegistry (Date truthy truthy_eq_some_iff)
open PiiRegistry

section Pages

variable {getTime : String → Option ℤ} {service : SourceRedactionService} {p : Platform}
  {replies : List (Request × Answered)} {s t : World} {tenantId resourceId email nowIso : String} {entry : PiiRegistryEntry}
  {event : AuditEvent} {sort : List AuditEvent → List AuditEvent} {headers : Headers}

lemma actor_of_mem (h : event ∈ eventsForRegistryEntry entry none) : event.tenantId = entry.tenantId ∧
    (entry.declaredBy = some event.actorEmail ∨ entry.lastModifiedBy = some event.actorEmail) := by
  simp only [eventsForRegistryEntry, List.mem_append, Option.mem_toList, Option.bind_eq_bind, Option.bind_eq_some_iff] at h
  rcases h with ⟨actorEmail, hactor, createdAt, -, he⟩ | ⟨actorEmail, hactor, updatedAt, -, he⟩
  · obtain rfl := Option.some.inj he
    exact ⟨rfl, .inl (truthy_eq_some_iff.mp (Option.filter_eq_some_iff.mp hactor).1).1⟩
  · obtain rfl := Option.some.inj he
    exact ⟨rfl, .inr (truthy_eq_some_iff.mp (Option.filter_eq_some_iff.mp hactor).1).1⟩

lemma events_unattributed (h : entry.createdAt = none ∧ entry.declaredBy = none ∧ entry.lastModifiedBy = none) :
    eventsForRegistryEntry entry none = [] := by
  refine List.eq_nil_iff_forall_not_mem.mpr fun event hm => ?_
  rcases (actor_of_mem hm).2 with hactor | hactor
  · rw [h.2.1] at hactor
    cases hactor
  · rw [h.2.2] at hactor
    cases hactor

lemma Told.mem_registryEvents (h : Told p replies s) (hp : Unattributed p) (ht : Plain tenantId) (hne : email ≠ "") :
    event ∈ (listEntries { tenantId := tenantId, actorEmail := email } s.registry).flatMap
        (eventsForRegistryEntry · (some email)) ↔
      event.actorEmail = email ∧ ∃ resourceId, event ∈ trail tenantId resourceId (writings tenantId resourceId replies) := by
  have htruthy : truthy (some email) = some email := truthy_eq_some_iff.mpr ⟨rfl, hne⟩
  have hevents (entry : PiiRegistryEntry) : event ∈ eventsForRegistryEntry entry (some email) ↔
      event ∈ eventsForRegistryEntry entry none ∧ event.actorEmail = email := by
    rw [eventsForRegistryEntry_eq entry (some email), List.mem_filter, passes, htruthy]
    simp
  have hlisted (entry : PiiRegistryEntry) :
      entry ∈ listEntries { tenantId := tenantId, actorEmail := email } s.registry ↔
        s.registry.entries.get? entry.key = some entry ∧ (entry.tenantId = none ∨ entry.tenantId = some tenantId) ∧
          (entry.declaredBy = some email ∨ entry.lastModifiedBy = some email) := by
    have hnone : truthy none = none := rfl
    rw [← h.keyed.mem_values, listEntries]
    simp only [htruthy, hnone]
    simp [visibleTo, and_comm]
  rw [List.mem_flatMap]
  constructor
  · rintro ⟨entry, hentry, hm⟩
    obtain ⟨hget, htenant, hactor⟩ := (hlisted entry).mp hentry
    obtain ⟨hm, hemail⟩ := (hevents entry).mp hm
    refine ⟨hemail, entry.resourceId, ?_⟩
    rcases htenant with htenant | htenant
    · rw [PiiRegistryEntry.key, htenant, h.shared] at hget
      rw [events_unattributed (get?_startup_unattributed hp hget)] at hm
      cases hm
    · rw [PiiRegistryEntry.key, htenant] at hget
      have hown := h.own tenantId entry.resourceId ht
      rw [hget] at hown
      have hattributed : Attributed tenantId entry.resourceId (writings tenantId entry.resourceId replies) entry := hown
      exact hattributed.events ▸ hm
  · rintro ⟨hemail, resourceId, hm⟩
    have hown := h.own tenantId resourceId ht
    cases hget : s.registry.entries.get? (keyOf (some tenantId) resourceId) with
    | none =>
      rw [hget] at hown
      have hnil : writings tenantId resourceId replies = [] := hown
      rw [hnil] at hm
      cases hm
    | some entry =>
      rw [hget] at hown
      have hattributed : Attributed tenantId resourceId (writings tenantId resourceId replies) entry := hown
      rw [← hattributed.events] at hm
      refine ⟨entry, (hlisted entry).mpr ⟨?_, .inr hattributed.tenantId, ?_⟩, (hevents entry).mpr ⟨hm, hemail⟩⟩
      · rw [h.keyed _ entry hget, hget]
      · exact hemail ▸ (actor_of_mem hm).2

/-- The resource's trail, or else that nobody knows the resource. -/
def toldOfResource (sort : List AuditEvent → List AuditEvent) (nowIso : String) (p : Platform)
    (replies : List (Request × Answered)) (tenantId resourceId : String) : Deletion.Reply Trail :=
  let events := sort (trail tenantId resourceId (writings tenantId resourceId replies))
  if writings tenantId resourceId replies = [] ∧ (p.startup ∅).get? (keyOf none resourceId) = none then
    .failed 404 "No registry entry found for this resource"
  else .sent 200 ⟨resourceId, events, events.length, nowIso⟩

/-- What is told of the resource that a path's parameter decodes to. -/
def toldOfParam (sort : List AuditEvent → List AuditEvent) (nowIso : String) (p : Platform)
    (replies : List (Request × Answered)) (tenantId param : String) : Deletion.Reply Trail :=
  match decodeURIComponent param with
  | none => .failed 500 "Failed to load audit trail"
  | some resourceId => toldOfResource sort nowIso p replies tenantId resourceId

lemma toldOfParam_encode (resourceId : String) : toldOfParam sort nowIso p replies tenantId (encodeURIComponent resourceId) =
    toldOfResource sort nowIso p replies tenantId resourceId := by
  rw [toldOfParam, decodeURIComponent_encode]

lemma Told.auditByResource (h : Told p replies s) (hwide : p.Wide) (hp : Unattributed p) (ht : Plain headers.tenant)
    (hsort : NewestFirst sort) (param : String) : auditByResource sort nowIso s.registry headers param =
      toldOfParam sort nowIso p replies headers.tenant param := by
  rw [Audit.auditByResource, toldOfParam]
  cases decodeURIComponent param with
  | none => rfl
  | some resourceId =>
  have hown := h.own headers.tenant resourceId ht
  simp only [getEntry, toldOfResource]
  cases hget : s.registry.entries.get? (keyOf (some headers.tenant) resourceId) with
  | some entry =>
    rw [hget] at hown
    have hattributed : Attributed headers.tenant resourceId (writings headers.tenant resourceId replies) entry := hown
    simp only [Option.some_or, hattributed.events, hattributed.resourceId, hattributed.written, false_and, if_false]
  | none =>
    rw [hget] at hown
    have hnil : writings headers.tenant resourceId replies = [] := hown
    have hsorted : sort [] = [] := List.perm_nil.mp (hsort.perm [])
    rw [Option.none_or, h.shared, hnil]
    cases hshared : (p.startup ∅).get? (keyOf none resourceId) with
    | none => simp
    | some entry =>
      have hresource : entry.resourceId = resourceId := by
        have hkey : entry.key = keyOf none resourceId := keyed_serve _ _ _ hshared
        rcases mem_startup (OrderedMap.mem_values.mpr ⟨_, hshared⟩) with hm | ⟨id, hl, -⟩
        · rw [PiiRegistryEntry.key, (hwide entry hm).2] at hkey
          exact keyOf_none_inj hkey
        · cases hl
      have htrail : trail headers.tenant resourceId [] = [] := rfl
      simp [events_unattributed (get?_startup_unattributed hp hshared), hresource, htrail, hsorted]

/-- What the actor did to the tenant's resources, as far as they tell, and the requests to delete users. -/
def Happened (replies : List (Request × Answered)) (w : Deletion.World) (tenantId email : String) (event : AuditEvent) :
    Prop :=
  event.actorEmail = email ∧
    ((∃ resourceId, event ∈ trail tenantId resourceId (writings tenantId resourceId replies)) ∨
      ∃ request ∈ listByRequestedBy email tenantId maxPageSize w, eventForDeletionRequest request = some event)

structure ActorPage (happened : AuditEvent → Prop) (limit : ℚ) (events : List AuditEvent) : Prop where
  bounded : events.length ≤ maxPageSize
  newestFirst : events.Pairwise fun a b => b.timestamp ≤ a.timestamp
  sound : ∀ event ∈ events, happened event
  complete (event : AuditEvent) : happened event → event ∈ events ∨
    events.length = ⌊limit⌋.toNat ∧ ∀ shown ∈ events, event.timestamp ≤ shown.timestamp

def newestFirst (events : List AuditEvent) : List AuditEvent :=
  events.insertionSort fun a b => b.timestamp ≤ a.timestamp

instance newestFirst_total : Std.Total fun a b : AuditEvent => b.timestamp ≤ a.timestamp :=
  ⟨fun a b => le_total b.timestamp a.timestamp⟩

instance newestFirst_trans : IsTrans AuditEvent fun a b => b.timestamp ≤ a.timestamp :=
  ⟨fun _ _ _ hab hbc => le_trans hbc hab⟩

lemma newestFirst_spec : NewestFirst newestFirst :=
  ⟨fun events => List.perm_insertionSort _ events, fun events => List.pairwise_insertionSort _ events⟩

def declaredBy (tenantId : String) (now : Date) (actorEmail : Option String) : Request × List Answer :=
  (.upsert (some tenantId) usersDeclaration none now actorEmail, [.done, .store .done, .store .done, .done])

/-- The token that all share declares, then two people edit. -/
def editedTwice : List (Request × List Answer) :=
  [declaredBy "acme" 0 none, declaredBy "acme" 1000 (some "ada"),
    (.mark .synced (some "acme") "bigquery:p.d.users" (some "1970-01-01"), [.store .done, .store .done, .store .done]),
    declaredBy "globex" 1500 (some "eve"), declaredBy "acme" 2000 (some "bob")]

def editedTrail : Trail where
  subject := "bigquery:p.d.users"
  events := [⟨.piiRegistryModified, "bigquery:p.d.users", "bob", some "acme", "1970-01-01T00:00:02.000Z"⟩,
    ⟨.piiRegistryDeclared, "bigquery:p.d.users", "ada", some "acme", "1970-01-01T00:00:00.000Z"⟩]
  count := 2
  timestamp := "1970-01-01T00:00:03.000Z"

end Pages

end ChameleonVault.Audit
