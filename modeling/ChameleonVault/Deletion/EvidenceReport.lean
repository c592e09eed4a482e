import ChameleonVault.Collections.Median
import ChameleonVault.Deletion.IssueDates
import ChameleonVault.Deletion.Routes
import ChameleonVault.Encoding.IsoDate
import Mathlib.Data.Rat.Floor
import Mathlib.Data.Set.Card

/-! The rollup of a period's deletion requests: which reached a certificate, how soon, and which did not. -/

namespace ChameleonVault.Deletion

open Collections Concurrency Interleaving Discipline Encoding
open KeyRegistry (Date truthy)

section Report

structure IncompleteDeletionRequest where
  deletionRequestId : String
  userId : String
  status : Status
  createdAt : String
  ageHours : ℚ
  deriving DecidableEq

structure DeletionEvidenceReport where
  totalRequests : ℕ
  certificateIssued : ℕ
  incomplete : List IncompleteDeletionRequest
  partialFailures : ℕ
  medianTimeToCertificateHours : Option ℚ
  deriving DecidableEq

def hoursBetween (start finish : ℤ) : ℚ := ((finish - start : ℤ) : ℚ) / (1000 * 60 * 60)

/-- `Math.round(hours * 10) / 10` -/
def toTenths (hours : ℚ) : ℚ := (⌊hours * 10 + 1 / 2⌋ : ℚ) / 10

def incompleteItem (now : Date) (request : DeletionRequest) : IncompleteDeletionRequest where
  deletionRequestId := request.deletionRequestId
  userId := request.userId
  status := request.status
  createdAt := IsoDate.toISOString request.createdAt
  ageHours := toTenths (hoursBetween request.createdAt now)

/-- The counters and lists that the loop fills. -/
structure Tally where
  incomplete : List IncompleteDeletionRequest := []
  timeToCertificateHours : List ℚ := []
  certificateIssued : ℕ := 0
  partialFailures : ℕ := 0

def timeToCertificate (request : DeletionRequest) : Option ℚ :=
  request.certificateIssuedAt.map fun issuedAt : Date => hoursBetween request.createdAt issuedAt

def Tally.add (now : Date) (tally : Tally) (request : DeletionRequest) : Tally :=
  let tally := if request.status = .cascadePartialFailure then
    { tally with partialFailures := tally.partialFailures + 1 } else tally
  if request.status = .certificateIssued then
    { tally with
      certificateIssued := tally.certificateIssued + 1
      timeToCertificateHours := tally.timeToCertificateHours ++ (timeToCertificate request).toList }
  else { tally with incomplete := tally.incomplete ++ [incompleteItem now request] }

def computeDeletionEvidence (requests : List DeletionRequest) (now : Date) : DeletionEvidenceReport :=
  let tally := requests.foldl (Tally.add now) {}
  { totalRequests := requests.length
    certificateIssued := tally.certificateIssued
    incomplete := tally.incomplete
    partialFailures := tally.partialFailures
    medianTimeToCertificateHours := median tally.timeToCertificateHours }

/-- Created by the tenant between the two dates, which count themselves. -/
def InPeriod (tenantId : String) (fromDate toDate : ℤ) (request : DeletionRequest) : Prop :=
  request.tenantId = some tenantId ∧ fromDate ≤ request.createdAt ∧ (request.createdAt : ℤ) ≤ toDate

instance inPeriod_decidable (tenantId : String) (fromDate toDate : ℤ) (request : DeletionRequest) :
    Decidable (InPeriod tenantId fromDate toDate request) := inferInstanceAs (Decidable (_ ∧ _))

def World.listByTenantAndDateRange (tenantId : String) (fromDate toDate : ℤ) (w : World) : List DeletionRequest :=
  (w.requests.filter fun request => InPeriod tenantId fromDate toDate request).insertionSort fun a b => newer b a = false

structure EvidenceQuery where
  fromDate : Option String := none
  toDate : Option String := none

structure EvidenceReply where
  tenantId : String
  fromDate : ℤ
  toDate : ℤ
  report : DeletionEvidenceReport
  generatedAt : Date
  deriving DecidableEq

/-- `GET /audit/deletion-evidence`, with what the store lists for the period. -/
def auditDeletionEvidence (parseDate : String → Option ℤ) (now : Date)
    (list : String → ℤ → ℤ → Except String (List DeletionRequest)) (headers : Headers) (query : EvidenceQuery) :
    Reply EvidenceReply :=
  let fromDate := (truthy query.fromDate).elim (some ((now : ℤ) - 90 * 24 * 60 * 60 * 1000)) parseDate
  let toDate := (truthy query.toDate).elim (some (now : ℤ)) parseDate
  match fromDate, toDate with
  | some fromDate, some toDate =>
    match list headers.tenant fromDate toDate with
    | .ok requests => .sent 200 ⟨headers.tenant, fromDate, toDate, computeDeletionEvidence requests now, now⟩
    | .error _ => .failed 500 "Failed to compute deletion evidence"
  | _, _ => .failed 400 "from/to must be valid dates"

end Report

section Loop

variable {requests : List DeletionRequest} {now : Date} {tally : Tally}

def isIssued (request : DeletionRequest) : Bool := request.status = .certificateIssued

lemma tally_foldl (requests : List DeletionRequest) (tally : Tally) :
    requests.foldl (Tally.add now) tally =
      { incomplete := tally.incomplete ++ (requests.filter (!isIssued ·)).map (incompleteItem now)
        timeToCertificateHours :=
          tally.timeToCertificateHours ++ (requests.filter isIssued).flatMap fun r => (timeToCertificate r).toList
        certificateIssued := tally.certificateIssued + requests.countP isIssued
        partialFailures := tally.partialFailures + requests.countP (·.status = .cascadePartialFailure) } := by
  induction requests generalizing tally with
  | nil => simp
  | cons request requests ih =>
    rw [List.foldl_cons, ih]
    cases hs : request.status <;> simp [Tally.add, isIssued, hs] <;> omega

lemma computeDeletionEvidence_eq (requests : List DeletionRequest) (now : Date) :
    computeDeletionEvidence requests now =
      { totalRequests := requests.length
        certificateIssued := requests.countP isIssued
        incomplete := (requests.filter (!isIssued ·)).map (incompleteItem now)
        partialFailures := requests.countP (·.status = .cascadePartialFailure)
        medianTimeToCertificateHours :=
          median ((requests.filter isIssued).flatMap fun r => (timeToCertificate r).toList) } := by
  simp [computeDeletionEvidence, tally_foldl]

lemma mem_times_iff {hours : ℚ} :
    hours ∈ (requests.filter isIssued).flatMap (fun r => (timeToCertificate r).toList) ↔
      ∃ request ∈ requests, request.status = .certificateIssued ∧
        ∃ issuedAt, request.certificateIssuedAt = some issuedAt ∧ hours = hoursBetween request.createdAt issuedAt := by
  simp only [List.mem_flatMap, List.mem_filter, isIssued, decide_eq_true_eq, Option.mem_toList, timeToCertificate,
    Option.map_eq_some_iff, and_assoc]
  refine exists_congr fun request => and_congr_right fun _ => and_congr_right fun _ => exists_congr fun issuedAt => ?_
  exact and_congr_right fun _ => eq_comm

end Loop

section Hours

variable {start finish start' finish' : ℤ}

lemma hoursBetween_nonneg (h : start ≤ finish) : 0 ≤ hoursBetween start finish := by
  have hms : (0 : ℚ) ≤ ((finish - start : ℤ) : ℚ) := Int.cast_nonneg (sub_nonneg.mpr h)
  exact div_nonneg hms (by norm_num)

lemma hoursBetween_mono (hs : start' ≤ start) (hf : finish ≤ finish') :
    hoursBetween start finish ≤ hoursBetween start' finish' := by
  have hms : ((finish - start : ℤ) : ℚ) ≤ ((finish' - start' : ℤ) : ℚ) := Int.cast_le.mpr (by omega)
  exact div_le_div_of_nonneg_right hms (by norm_num)

lemma toTenths_nonneg {hours : ℚ} (h : 0 ≤ hours) : 0 ≤ toTenths hours := by
  have hfloor : 0 ≤ ⌊hours * 10 + 1 / 2⌋ := Int.floor_nonneg.mpr (by positivity)
  exact div_nonneg (Int.cast_nonneg hfloor) (by norm_num)

end Hours

section Runs

variable {d : Deployment} {w : World} {log : (vault d).Log} {tenantId id : String} {fromDate toDate : ℤ}
  {request : DeletionRequest}

/-- The ids under which requests of the period are stored that have the property. -/
def World.storedIds (tenantId : String) (fromDate toDate : ℤ) (p : DeletionRequest → Prop) (w : World) : Set String :=
  {id | ∃ request, w.deletionRequests.lookup id = some request ∧ InPeriod tenantId fromDate toDate request ∧ p request}

/-- What the report of a period says, beside the store and the run that led to it. -/
structure BornOut (w : World) (log : (vault d).Log) (tenantId : String) (fromDate toDate : ℤ)
    (report : DeletionEvidenceReport) : Prop where
  total : report.totalRequests = (w.storedIds tenantId fromDate toDate fun _ => True).ncard
  issued : report.certificateIssued =
    (w.storedIds tenantId fromDate toDate fun request => request.status = .certificateIssued).ncard
  partialFailures : report.partialFailures =
    (w.storedIds tenantId fromDate toDate fun request => request.status = .cascadePartialFailure).ncard
  counted : report.totalRequests = report.certificateIssued + report.incomplete.length
  failed : report.partialFailures = report.incomplete.countP (·.status = .cascadePartialFailure)
  once : (report.incomplete.map IncompleteDeletionRequest.deletionRequestId).Nodup
  incomplete (item : IncompleteDeletionRequest) : item ∈ report.incomplete ↔ ∃ id request,
    w.deletionRequests.lookup id = some request ∧ InPeriod tenantId fromDate toDate request ∧
      request.status ≠ .certificateIssued ∧ incompleteItem w.clock request = item
  named {id : String} {request : DeletionRequest} : w.deletionRequests.lookup id = some request →
    (incompleteItem w.clock request).deletionRequestId = id
  aged : ∀ item ∈ report.incomplete, 0 ≤ item.ageHours
  untimed : report.medianTimeToCertificateHours = none ↔ ∀ id request, w.deletionRequests.lookup id = some request →
    InPeriod tenantId fromDate toDate request → request.status = .certificateIssued → request.certificateIssuedAt = none
  timed : ∀ hours ∈ report.medianTimeToCertificateHours, 0 ≤ hours ∧ hours ≤ hoursBetween fromDate w.clock
  certified {id : String} {request : DeletionRequest} : w.deletionRequests.lookup id = some request →
    InPeriod tenantId fromDate toDate request → request.certificateIssuedAt.isSome = true → 0 < certificates id log

lemma mem_listed_iff (hw : Keyed w) : request ∈ w.listByTenantAndDateRange tenantId fromDate toDate ↔
    w.deletionRequests.lookup request.deletionRequestId = some request ∧ InPeriod tenantId fromDate toDate request := by
  rw [World.listByTenantAndDateRange, List.mem_insertionSort, List.mem_filter, decide_eq_true_eq, mem_requests]
  refine and_congr_left fun _ => ⟨?_, fun h => ⟨_, h⟩⟩
  rintro ⟨id, h⟩
  rw [hw id request h]
  exact h

lemma mem_listed (hw : Keyed w) (hl : w.deletionRequests.lookup id = some request)
    (hp : InPeriod tenantId fromDate toDate request) :
    request ∈ w.listByTenantAndDateRange tenantId fromDate toDate :=
  (mem_listed_iff hw).mpr ⟨(hw id request hl).symm ▸ hl, hp⟩

lemma map_requests (hw : Keyed w) : w.requests.map DeletionRequest.deletionRequestId = w.deletionRequests.keys := by
  rw [World.requests, AList.keys, List.keys, List.map_map]
  refine List.map_congr_left fun entry hm => ?_
  obtain ⟨id, request⟩ := entry
  exact hw id request (AList.mem_lookup_iff.mpr hm)

lemma listed_nodup (hw : Keyed w) :
    ((w.listByTenantAndDateRange tenantId fromDate toDate).map DeletionRequest.deletionRequestId).Nodup := by
  refine ((List.perm_insertionSort _ _).map _).nodup_iff.mpr ?_
  refine List.Nodup.sublist (List.filter_sublist.map _) ?_
  rw [map_requests hw]
  exact w.deletionRequests.nodupKeys

lemma ncard_storedIds (hw : Keyed w) (p : DeletionRequest → Bool) :
    (w.storedIds tenantId fromDate toDate fun request => p request = true).ncard =
      (w.listByTenantAndDateRange tenantId fromDate toDate).countP p := by
  set ids := ((w.listByTenantAndDateRange tenantId fromDate toDate).filter p).map DeletionRequest.deletionRequestId with hids
  have hnodup : ids.Nodup := (listed_nodup hw).sublist (List.filter_sublist.map _)
  have hset : w.storedIds tenantId fromDate toDate (fun request => p request = true) = (ids.toFinset : Set String) := by
    ext id
    simp only [World.storedIds, Set.mem_ofPred_eq, List.coe_toFinset, hids, List.mem_map, List.mem_filter]
    constructor
    · rintro ⟨request, hl, hp, h⟩
      exact ⟨request, ⟨mem_listed hw hl hp, h⟩, hw id request hl⟩
    · rintro ⟨request, ⟨hm, h⟩, rfl⟩
      obtain ⟨hl, hp⟩ := (mem_listed_iff hw).mp hm
      exact ⟨request, hl, hp, h⟩
  rw [hset, Set.ncard_coe_finset, List.toFinset_card_of_nodup hnodup, hids, List.length_map, List.countP_eq_length_filter]

lemma bornOut_reachable {now : Date} {c : (vault d).Config}
    (hr : Reachable onward (initial (emptyVault now)) c) (tenantId : String) (fromDate toDate : ℤ) :
    BornOut c.state c.log tenantId fromDate toDate
      (computeDeletionEvidence (c.state.listByTenantAndDateRange tenantId fromDate toDate) c.state.clock) := by
  have hdated : Dated c.state c.log := dated_reachable hr
  have hkeyed : Keyed c.state := ((conforms_initial (keyed_emptyVault now)).reachable (dating_governs d) hr).valid
  rw [computeDeletionEvidence_eq]
  set requests := c.state.listByTenantAndDateRange tenantId fromDate toDate with hrequests
  refine ⟨?_, ?_, ?_, ?_, ?_, ?_, fun item => ?_, fun hl => hkeyed _ _ hl, fun item hm => ?_, ?_, fun hours hm => ?_,
    fun hl _ hi => ?_⟩
  · simpa using (ncard_storedIds hkeyed fun _ => true).symm
  · simpa [isIssued] using (ncard_storedIds hkeyed isIssued).symm
  · simpa using (ncard_storedIds hkeyed fun request => request.status = .cascadePartialFailure).symm
  · simp only [List.length_map, ← List.countP_eq_length_filter]
    simpa using List.length_eq_countP_add_countP isIssued (l := requests)
  · simp only [List.countP_map, List.countP_filter]
    refine List.countP_congr fun request _ => ?_
    cases hs : request.status <;> simp [isIssued, incompleteItem, hs]
  · rw [List.map_map]
    exact (listed_nodup hkeyed).sublist (List.filter_sublist.map _)
  · simp only [List.mem_map, List.mem_filter, hrequests, mem_listed_iff hkeyed, isIssued, Bool.not_eq_true',
      decide_eq_false_iff_not]
    constructor
    · rintro ⟨request, ⟨⟨hl, hp⟩, hs⟩, rfl⟩
      exact ⟨_, request, hl, hp, hs, rfl⟩
    · rintro ⟨id, request, hl, hp, hs, rfl⟩
      exact ⟨request, ⟨⟨(hkeyed id request hl).symm ▸ hl, hp⟩, hs⟩, rfl⟩
  · obtain ⟨request, hrequest, rfl⟩ := List.mem_map.mp hm
    obtain ⟨hl, -⟩ := (mem_listed_iff hkeyed).mp (List.mem_filter.mp hrequest).1
    exact toTenths_nonneg (hoursBetween_nonneg (Int.ofNat_le.mpr (hdated.created hl)))
  · rw [median_eq_none_iff, List.eq_nil_iff_forall_not_mem]
    simp only [mem_times_iff]
    constructor
    · intro hnone id request hl hp hs
      refine Option.eq_none_iff_forall_not_mem.mpr fun issuedAt hi => ?_
      exact hnone _ ⟨request, mem_listed hkeyed hl hp, hs, issuedAt, hi, rfl⟩
    · rintro hnone hours ⟨request, hrequest, hs, issuedAt, hi, -⟩
      obtain ⟨hl, hp⟩ := (mem_listed_iff hkeyed).mp hrequest
      rw [hnone _ request hl hp hs] at hi
      contradiction
  · have hbounds {hours : ℚ} (hm : hours ∈ (requests.filter isIssued).flatMap fun r => (timeToCertificate r).toList) :
        0 ≤ hours ∧ hours ≤ hoursBetween fromDate c.state.clock := by
      obtain ⟨request, hrequest, -, issuedAt, hi, rfl⟩ := mem_times_iff.mp hm
      obtain ⟨hl, -, hstart, -⟩ := (mem_listed_iff hkeyed).mp hrequest
      obtain ⟨hcreated, hclock, -⟩ := hdated.issued hl hi
      exact ⟨hoursBetween_nonneg (Int.ofNat_le.mpr hcreated), hoursBetween_mono hstart (Int.ofNat_le.mpr hclock)⟩
    obtain ⟨least, hleast, hle⟩ := exists_le_median hm
    obtain ⟨greatest, hgreatest, hge⟩ := exists_ge_median hm
    exact ⟨(hbounds hleast).1.trans hle, hge.trans (hbounds hgreatest).2⟩
  · obtain ⟨issuedAt, hi⟩ := Option.isSome_iff_exists.mp hi
    exact (hdated.issued hl hi).2.2

/-- The route's reply when the store can be read. -/
def World.auditDeletionEvidence (parseDate : String → Option ℤ) (headers : Headers) (query : EvidenceQuery) (w : World) :
    Reply EvidenceReply :=
  Deletion.auditDeletionEvidence parseDate w.clock
    (fun tenantId fromDate toDate => .ok (w.listByTenantAndDateRange tenantId fromDate toDate)) headers query

def certifiedLater : List VaultEvent :=
  keyShredded ++ [.env (.tick 5400000)] ++ shortcutFound 2 ++ steps 2 3 ++ issued 2 ++
    [.start (.createRequest "bob" "second" "acme" none)] ++ steps 3 3 ++ [.env (.tick 1800000)]

def certifiedReport : DeletionEvidenceReport where
  totalRequests := 2
  certificateIssued := 1
  incomplete := [⟨"second", "bob", .shredRequested, "1970-01-01T01:30:00.000Z", 1 / 2⟩]
  partialFailures := 0
  medianTimeToCertificateHours := some (3 / 2)

end Runs

end ChameleonVault.Deletion
