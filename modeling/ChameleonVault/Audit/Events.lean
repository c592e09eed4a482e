import ChameleonVault.Deletion.Routes
import ChameleonVault.Encoding.IsoDate
import ChameleonVault.Encoding.PercentDecoding
import ChameleonVault.PiiRegistry.Service
import Mathlib.Data.List.Sort
import Mathlib.Data.Rat.Floor
import Mathlib.Data.String.Basic

/-! The audit events of a registry entry and of a deletion request, and the routes that list them. -/

namespace ChameleonVault.Audit

open Encoding
open Deletion (DeletionRequest Headers Reply newer)
open KeyRegistry (truthy)
open PiiRegistry (PiiRegistryEntry Registry getEntry listEntries)

section Events

inductive AuditEventType where
  | piiRegistryDeclared | piiRegistryModified | deletionRequested
  deriving DecidableEq

structure AuditEvent where
  type : AuditEventType
  resourceId : String
  actorEmail : String
  tenantId : Option String
  timestamp : String
  deriving DecidableEq

/-- Everyone where there is no filter. -/
def passes (actorFilter : Option String) (email : String) : Bool := (truthy actorFilter).all fun actor => email = actor

def eventsForRegistryEntry (entry : PiiRegistryEntry) (actorFilter : Option String) : List AuditEvent :=
  let event (type : AuditEventType) (actorEmail timestamp : String) : AuditEvent :=
    ⟨type, entry.resourceId, actorEmail, entry.tenantId, timestamp⟩
  let declared := do
    let actorEmail ← (truthy entry.declaredBy).filter (passes actorFilter)
    let createdAt ← truthy entry.createdAt
    return event .piiRegistryDeclared actorEmail createdAt
  let modified := do
    let actorEmail ← (truthy entry.lastModifiedBy).filter (passes actorFilter)
    let updatedAt ← (truthy entry.updatedAt).filter fun updatedAt => some updatedAt ≠ entry.createdAt
    return event .piiRegistryModified actorEmail updatedAt
  declared.toList ++ modified.toList

def eventForDeletionRequest (request : DeletionRequest) : Option AuditEvent :=
  (truthy request.requestedBy).map fun actorEmail =>
    ⟨.deletionRequested, request.userId, actorEmail, request.tenantId, IsoDate.toISOString request.createdAt⟩

end Events

section Pages

def maxPageSize : ℕ := 200
def defaultPageSize : ℕ := 50

/-- `number` is `Number` of a text, where that is finite. -/
def parsePageSize (number : String → Option ℚ) (raw : Option String) : ℚ :=
  match raw.bind number with
  | some parsed => if parsed ≤ 0 then defaultPageSize else min parsed maxPageSize
  | none => defaultPageSize

def slice {α : Type} (limit : ℚ) (xs : List α) : List α := xs.take ⌊limit⌋.toNat

/-- The comparison never calls two events equal, so that events of one time may come in any order. -/
structure NewestFirst (sort : List AuditEvent → List AuditEvent) : Prop where
  perm (events : List AuditEvent) : (sort events).Perm events
  sorted (events : List AuditEvent) : (sort events).Pairwise fun a b => b.timestamp ≤ a.timestamp

structure Trail where
  subject : String
  events : List AuditEvent
  count : ℕ
  timestamp : String
  deriving DecidableEq

def listByRequestedBy (email tenantId : String) (limit : ℕ) (w : Deletion.World) : List DeletionRequest :=
  ((w.requests.filter fun request => request.requestedBy = some email ∧ request.tenantId = some tenantId).insertionSort
    fun a b => newer b a = false).take limit

variable (sort : List AuditEvent → List AuditEvent) (nowIso : String) (registry : Registry)

/-- `GET /audit/actor/:email`, with what the store lists of the deletion requests. -/
def auditByActor (number : String → Option ℚ) (listByRequestedBy : String → String → ℕ → Except String (List DeletionRequest))
    (headers : Headers) (email : String) (limit : Option String) : Reply Trail :=
  let registryEvents := (listEntries { tenantId := headers.tenant, actorEmail := email } registry).flatMap
    (eventsForRegistryEntry · (some email))
  match listByRequestedBy email headers.tenant maxPageSize with
  | .ok deletionRequests =>
    let events := slice (parsePageSize number limit)
      (sort (registryEvents ++ deletionRequests.filterMap eventForDeletionRequest))
    .sent 200 ⟨email, events, events.length, nowIso⟩
  | .error _ => .failed 500 "Failed to load audit trail"

/-- `GET /audit/resource/:resourceId` -/
def auditByResource (headers : Headers) (resourceId : String) : Reply Trail :=
  match decodeURIComponent resourceId with
  | none => .failed 500 "Failed to load audit trail"
  | some resourceId =>
    match getEntry resourceId (some headers.tenant) registry with
    | none => .failed 404 "No registry entry found for this resource"
    | some entry =>
      let events := sort (eventsForRegistryEntry entry none)
      .sent 200 ⟨entry.resourceId, events, events.length, nowIso⟩

end Pages

section Sizes

variable {number : String → Option ℚ} {raw : Option String} {α : Type} {xs : List α} {limit : ℚ}

lemma parsePageSize_bounds : 0 < parsePageSize number raw ∧ parsePageSize number raw ≤ maxPageSize := by
  rw [parsePageSize]
  split
  · split_ifs with h
    · exact ⟨by norm_num [defaultPageSize], by norm_num [defaultPageSize, maxPageSize]⟩
    · exact ⟨lt_min (not_le.mp h) (by norm_num [maxPageSize]), min_le_right _ _⟩
  · exact ⟨by norm_num [defaultPageSize], by norm_num [defaultPageSize, maxPageSize]⟩

lemma length_slice_le (h : limit ≤ maxPageSize) : (slice limit xs).length ≤ maxPageSize := by
  have hfloor : ⌊limit⌋ ≤ (maxPageSize : ℤ) := Int.floor_le_iff.mpr (by push_cast; linarith)
  rw [slice, List.length_take]
  omega

end Sizes

section Sorting

variable {sort : List AuditEvent → List AuditEvent} {events : List AuditEvent} {limit : ℚ} {event : AuditEvent}

lemma NewestFirst.sorted_slice (h : NewestFirst sort) :
    (slice limit (sort events)).Pairwise fun a b => b.timestamp ≤ a.timestamp :=
  (h.sorted events).sublist (List.take_sublist _ _)

lemma NewestFirst.mem_of_slice (h : NewestFirst sort) (hm : event ∈ slice limit (sort events)) : event ∈ events :=
  (h.perm events).mem_iff.mp (List.mem_of_mem_take hm)

/-- What the page leaves out is older than all that it shows, and the page is full. -/
lemma NewestFirst.of_not_mem_slice (h : NewestFirst sort) (hm : event ∈ events)
    (hn : event ∉ slice limit (sort events)) : (slice limit (sort events)).length = ⌊limit⌋.toNat ∧
      ∀ shown ∈ slice limit (sort events), event.timestamp ≤ shown.timestamp := by
  have hsplit : sort events = slice limit (sort events) ++ (sort events).drop ⌊limit⌋.toNat :=
    (List.take_append_drop _ _).symm
  have hrest : event ∈ (sort events).drop ⌊limit⌋.toNat := by
    have hall : event ∈ sort events := (h.perm events).mem_iff.mpr hm
    rw [hsplit] at hall
    exact (List.mem_append.mp hall).resolve_left hn
  constructor
  · have hpos := List.length_pos_of_mem hrest
    rw [List.length_drop] at hpos
    rw [slice, List.length_take]
    omega
  · have hsorted := h.sorted events
    rw [hsplit] at hsorted
    exact fun shown hs => (List.pairwise_append.mp hsorted).2.2 shown hs event hrest

end Sorting

end ChameleonVault.Audit
