import ChameleonVault.Deletion.Tally

/-! The certificate and the whole history of attempts: the records that were found, whether or not
the attempt that found them was the one whose outcome is recorded. -/

namespace ChameleonVault.Deletion

open Concurrency Interleaving Discipline

variable {d : Deployment} {w w' : World} {log : (vault d).Log} {a : (vault d).Action} {e : (vault d).Entry}
  {id destination : String} {request : DeletionRequest}

section History

def Outcome.found : Outcome → ℕ
  | .done (.wiped found _) => found
  | .unconfirmed (.wiped found _) => found
  | .done (.rows affected _) => affected
  | .unconfirmed (.rows affected _) => affected
  | _ => 0

def attempt (id : String) : (vault d).Entry → Option (String × ℕ)
  | .act ⟨_, .wipe id' destination _ _, choice, _⟩ =>
    if id' = id then some (destination, Outcome.found choice) else none
  | .act ⟨_, .runQuery id' destination _, choice, _⟩ =>
    if id' = id then some (destination, Outcome.found choice) else none
  | _ => none

def finds (id destination : String) (e : (vault d).Entry) : Bool :=
  (attempt id e).any fun p => p.1 = destination ∧ 0 < p.2

def everFound (id destination : String) (log : (vault d).Log) : Bool := log.any (finds id destination)

def records (id destination : String) (e : (vault d).Entry) : Bool :=
  match changeOf id e with
  | some (.wipe destination' _ _) => destination' = destination
  | _ => false

def followed (id destination : String) : (vault d).Log → Bool
  | [] => false
  | e :: log => (records id destination e && everFound id destination log) || followed id destination log

def isQuiet (id : String) (e : (vault d).Entry) : Bool := (attempt id e).all fun p => p.2 = 0

lemma everFound_quiet (h : isQuiet id e = true) (destination : String) :
    everFound id destination (e :: log) = everFound id destination log := by
  have hf : finds id destination e = false := by
    simp only [finds, isQuiet] at h ⊢
    cases ha : attempt id e with
    | none => rfl
    | some p =>
      rw [ha] at h
      have hp : p.2 = 0 := of_decide_eq_true h
      simp [hp]
  simp [everFound, hf]

lemma everFound_of_followed (h : followed id destination log = true) : everFound id destination log = true := by
  induction log with
  | nil => contradiction
  | cons e log ih =>
    simp only [followed, Bool.or_eq_true, Bool.and_eq_true] at h
    have hlog : everFound id destination log = true := h.elim And.right ih
    simp only [everFound] at hlog
    simp [everFound, hlog]

lemma followed_cons (h : records id destination e = false) :
    followed id destination (e :: log) = followed id destination log := by
  simp [followed, h]

end History

section Guard

def isRedaction (destination : String) : Bool := redactInPlaceSuffix.toList.isSuffixOf destination.toList

/-- A declared table whose outcome is stored, and not as a failure. -/
def isListable (request : DeletionRequest) (destination : String) : Bool :=
  (parseLabel redactInPlaceSuffix destination).isSome &&
    (request.wipe destination).any fun wipe => wipe.status ≠ .failed

def isSignable (id : String) (request : DeletionRequest) (log : (vault d).Log) : Bool :=
  log.all fun e => (attempt id e).all fun p =>
    p.2 = 0 || (followed id p.1 log && (!isRedaction p.1 || isListable request p.1))

def isCertified (id : String) (log : (vault d).Log) : Bool :=
  anyThread (fun t => (draft id log t).isSome) log || log.any (uploads id)

def Op.signs : Op → Option String
  | .signerDeletionRequest id => some id
  | _ => none

/-- No call that was itself told of nothing at a destination records an outcome there once some attempt
has found something. When the signer reads the request, what was found has an outcome, and a table no
failure. From then on, no attempt finds anything. -/
def accountable (id : String) : (vault d).Guard := fun w log e =>
  ((match e, changeOf id e with
    | .act a, some (.wipe destination _ _) =>
      !((id, destination) ∈ tally.known a.tid log && everFound id destination log)
    | _, _ => true) &&
  (isQuiet id e || !isCertified id log) &&
  (match e, w.deletionRequests.lookup id with
    | .act a, some request => a.op.signs ≠ some id || isSignable id request log
    | _, _ => true)) = true

instance : ∀ w log e, Decidable (@accountable d id w log e) := fun _ _ _ => inferInstanceAs (Decidable (_ = true))

end Guard

section Claims

structure Accounts (id : String) (evidence : DeletionRequest) (log : (vault d).Log) : Prop where
  absent (wipe : JanitorWipe) : wipe ∈ evidence.janitorWipes → wipe.status = .succeeded →
    foundNothing wipe.details = true → everFound id wipe.destination log = false
  listed (resourceId : String) : everFound id (resourceId ++ redactInPlaceSuffix) log = true →
    ∃ wipe ∈ evidence.janitorWipes, ∀ now, ∃ item, wipeException now wipe = some item ∧
      item.resourceId = resourceId ∧ item.strategy = .redactInPlace

structure Truthful (id : String) (claims : Claims) (log : (vault d).Log) : Prop where
  absent (item : LineageItem) : item ∈ claims.lineageSummary → item.status = .confirmedAbsent →
    everFound id item.system log = false
  listed (resourceId : String) : everFound id (resourceId ++ redactInPlaceSuffix) log = true →
    ∃ item ∈ claims.sourceRedactionExceptions, item.resourceId = resourceId ∧ item.strategy = .redactInPlace

lemma Accounts.quiet {evidence : DeletionRequest} (h : Accounts id evidence log) (hq : isQuiet id e = true) :
    Accounts id evidence (e :: log) := by
  refine ⟨fun wipe hw hs hf => ?_, fun resourceId hf => ?_⟩
  · rw [everFound_quiet hq]
    exact h.absent wipe hw hs hf
  · rw [everFound_quiet hq] at hf
    exact h.listed resourceId hf

lemma Truthful.quiet {claims : Claims} (h : Truthful id claims log) (hq : isQuiet id e = true) :
    Truthful id claims (e :: log) := by
  refine ⟨fun item hi hs => ?_, fun resourceId hf => ?_⟩
  · rw [everFound_quiet hq]
    exact h.absent item hi hs
  · rw [everFound_quiet hq] at hf
    exact h.listed resourceId hf

lemma Accounts.truthful {evidence : DeletionRequest} {claims : Claims} (h : Accounts id evidence log)
    (hd : DerivedFrom evidence claims) : Truthful id claims log := by
  obtain ⟨hsummary, ⟨now, manualEntries, hexceptions⟩, -⟩ := hd
  refine ⟨fun item hi hs => ?_, fun resourceId hf => ?_⟩
  · rw [hsummary] at hi
    obtain ⟨wipe, hw, rfl⟩ := List.mem_map.mp hi
    obtain ⟨hw, hst⟩ := List.mem_filter.mp hw
    simp only [lineageItem] at hs ⊢
    split at hs
    · rename_i hn
      exact h.absent wipe hw (of_decide_eq_true hst) hn
    · contradiction
  · obtain ⟨wipe, hw, hitem⟩ := h.listed resourceId hf
    obtain ⟨item, hi, hr, hst⟩ := hitem now
    rw [hexceptions]
    exact ⟨item, List.mem_append_left _ (List.mem_filterMap.mpr ⟨wipe, hw, hi⟩), hr, hst⟩

end Claims

section Accounted

variable {t : ℕ}

lemma parseLabel_some {suffix resourceId : String} (h : (parseLabel suffix (resourceId ++ suffix)).isSome = true) :
    parseLabel suffix (resourceId ++ suffix) = some resourceId := by
  rw [parseLabel_append] at h ⊢
  split at h
  · rename_i hl
    rw [if_pos hl]
  · contradiction

lemma isRedaction_append (resourceId : String) : isRedaction (resourceId ++ redactInPlaceSuffix) = true := by
  rw [isRedaction, List.isSuffixOf_iff_suffix, String.toList_append]
  exact List.suffix_append _ _

lemma wipeException_redacted {wipe : JanitorWipe} {resourceId : String} (hs : wipe.status = .succeeded)
    (hf : foundNothing wipe.details = false)
    (hp : parseLabel redactInPlaceSuffix wipe.destination = some resourceId) (now : KeyRegistry.Date) :
    wipeException now wipe = some (redactedInPlaceItem now resourceId wipe.updatedAt) := by
  simp [wipeException, hs, hf, parseSourceRedactionDestination, hp]

structure Accounted (id : String) (request : DeletionRequest) (log : (vault d).Log) : Prop where
  distinct : request.WipesDistinct
  recorded (wipe : JanitorWipe) : wipe ∈ request.janitorWipes → isRecorded wipe
  absent (destination : String) (wipe : JanitorWipe) : request.wipe destination = some wipe →
    wipe.status = .succeeded → foundNothing wipe.details = true → followed id destination log = false
  drafted (t : ℕ) (evidence : DeletionRequest) : draft id log t = some evidence → Accounts id evidence log
  issued (a : (vault d).Action) (claims : Claims) : Entry.act a ∈ log → uploads id (.act a) = true →
    a.op.uploaded = some (id, claims) → Truthful id claims log

lemma exists_attempt (h : everFound id destination log = true) :
    ∃ e ∈ log, ∃ found, attempt id e = some (destination, found) ∧ 0 < found := by
  obtain ⟨e, he, hf⟩ := List.any_eq_true.mp h
  obtain ⟨⟨destination', found⟩, ha, hp⟩ := (Option.any_eq_true _ _).mp hf
  obtain ⟨hd, hpos⟩ := of_decide_eq_true hp
  exact ⟨e, he, found, by rw [ha, ← hd], hpos⟩

lemma signable_of_everFound (hs : isSignable id request log = true) (h : everFound id destination log = true) :
    followed id destination log = true ∧ (isRedaction destination = true → isListable request destination = true) := by
  obtain ⟨e, he, found, ha, hpos⟩ := exists_attempt h
  have hall := List.all_eq_true.mp hs e he
  simp only [ha, Option.all_some, Bool.or_eq_true, Bool.and_eq_true, Bool.not_eq_true', decide_eq_true_eq] at hall
  obtain ⟨hf, hl⟩ := hall.resolve_left (Nat.pos_iff_ne_zero.mp hpos)
  refine ⟨hf, fun hr => hl.resolve_left ?_⟩
  simp [hr]

-- Every finding was recorded, and the record that followed it is not one of nothing found.
lemma Accounted.accounts (h : Accounted id request log) (hs : isSignable id request log = true) :
    Accounts id request log where
  absent wipe hw hst hf := by
    have hq : followed id wipe.destination log = false :=
      h.absent wipe.destination wipe (h.distinct.wipe_eq hw) hst hf
    rw [Bool.eq_false_iff]
    intro he
    rw [(signable_of_everFound hs he).1] at hq
    contradiction
  listed resourceId he := by
    obtain ⟨hfollowed, hlisted⟩ := signable_of_everFound hs he
    have hl := hlisted (isRedaction_append resourceId)
    simp only [isListable, Bool.and_eq_true] at hl
    obtain ⟨wipe, hw, hst⟩ := (Option.any_eq_true _ _).mp hl.2
    obtain ⟨hm, hdest⟩ := mem_of_wipe hw
    have hst : wipe.status = .succeeded := (h.recorded wipe hm).resolve_right (of_decide_eq_true hst)
    have hf : foundNothing wipe.details = false := by
      rw [Bool.eq_false_iff]
      intro hf
      rw [h.absent _ wipe hw hst hf] at hfollowed
      contradiction
    have hp : parseLabel redactInPlaceSuffix wipe.destination = some resourceId := by
      rw [hdest]
      exact parseLabel_some hl.1
    exact ⟨wipe, hm, fun now => ⟨_, wipeException_redacted hst hf hp now, rfl, rfl⟩⟩

lemma records_iff : records id destination e = true ↔
    ∃ status details, changeOf id e = some (.wipe destination status details) := by
  simp only [records]
  split
  · rename_i destination' status details hc
    simp [hc]
  · rename_i hc
    refine ⟨nofun, ?_⟩
    rintro ⟨status, details, he⟩
    exact (hc destination status details he).elim

lemma wipe_after {now : KeyRegistry.Date} (h : records id destination e = false) :
    (Change.after now (changeOf id e) request).wipe destination = request.wipe destination := by
  simp only [records] at h
  rcases hc : changeOf id e with _ | (newStatus | fields | ⟨destination', status, details⟩)
  · rfl
  · rfl
  · rfl
  · simp only [hc, decide_eq_false_iff_not] at h
    exact wipe_writeWipe_ne h request

-- Nothing is recorded as found where the call itself was told so.
lemma not_everFound (h : within tally (accountable id) w log (.act a)) {details : WipeDetails}
    (hc : changeOf id (.act a) = some (.wipe destination .succeeded details)) (hf : foundNothing details = true) :
    everFound id destination log = false := by
  obtain ⟨hg, hallowed, -⟩ := within_of_act h
  have htold : (id, destination) ∈ tally.known a.tid log := by
    obtain ⟨he, -⟩ := changeOf_edit hc
    obtain ⟨t, op, choice, reply⟩ := a
    cases op <;> cases he
    exact hallowed hf
  simp only [accountable, hc, htold, decide_true, Bool.true_and, Bool.and_eq_true] at hg
  simpa using hg.1.1

lemma isQuiet_of_certified (h : accountable id w log e) (hc : isCertified id log = true) : isQuiet id e = true := by
  simp only [accountable, Bool.and_eq_true, hc] at h
  simpa using h.1.2

lemma isSignable_of_signs (h : accountable id w log (.act a)) (hl : w.deletionRequests.lookup id = some request)
    (ha : a.op.signs = some id) : isSignable id request log = true := by
  simp only [accountable, hl, ha, Bool.and_eq_true] at h
  simpa using h.2

lemma Accounted.absent_after (h : Accounted id request log) (ht : Touch (within tally (accountable id)) id w log a w' request)
    {wipe : JanitorWipe} (hw : (Change.after w.clock (changeOf id (.act a)) request).wipe destination = some wipe)
    (hs : wipe.status = .succeeded) (hf : foundNothing wipe.details = true) :
    followed id destination (.act a :: log) = false := by
  cases hr : records id destination (.act a) with
  | true =>
    obtain ⟨status, details, hc⟩ := records_iff.mp hr
    rw [hc] at hw
    obtain rfl := Option.some.inj ((wipe_writeWipe_self _ request).symm.trans hw)
    obtain rfl : status = .succeeded := hs
    have hn : everFound id destination log = false := not_everFound ht.allowed.guard hc hf
    have hq : followed id destination log = false := by
      rw [Bool.eq_false_iff]
      intro hq
      rw [everFound_of_followed hq] at hn
      contradiction
    simp [followed, hn, hq]
  | false =>
    rw [followed_cons hr]
    rw [wipe_after hr] at hw
    exact h.absent destination wipe hw hs hf

lemma isCertified_of_draft {evidence : DeletionRequest} (h : draft id log t = some evidence) :
    isCertified id log = true := by
  have ha : anyThread (fun t => (draft id log t).isSome) log = true := by
    rw [anyThread_iff]
    · exact ⟨t, by simp [h]⟩
    · intro u hu
      obtain ⟨evidence', hd⟩ := Option.isSome_iff_exists.mp hu
      exact holds_start (draft_iff.mp hd).1
  simp [isCertified, ha]

lemma isCertified_of_uploads (h : .act a ∈ log) (hu : uploads id (.act a) = true) : isCertified id log = true := by
  have ha : log.any (uploads id) = true := List.any_eq_true.mpr ⟨_, h, hu⟩
  simp [isCertified, ha]

lemma isQuiet_of_uploaded {claims : Claims} (h : a.op.uploaded = some (id, claims)) : isQuiet id (.act a) = true := by
  obtain ⟨t, op, choice, reply⟩ := a
  cases op <;> cases h
  rfl

lemma isQuiet_of_signs (h : a.op = .signerDeletionRequest id) : isQuiet id (.act a) = true := by
  obtain ⟨t, op, choice, reply⟩ := a
  subst h
  rfl

lemma Accounted.act (h : Accounted id request log) (ht : Touch (within tally (accountable id)) id w log a w' request) :
    Accounted id (Change.after w.clock (changeOf id (.act a)) request) (.act a :: log) where
  distinct := by
    rcases changeOf id (.act a) with _ | (newStatus | fields | ⟨destination, status, details⟩)
    · exact h.distinct
    · exact h.distinct
    · exact h.distinct
    · exact h.distinct.writeWipe _
  recorded := ht.recorded h.recorded
  absent destination wipe hw hs hf := h.absent_after ht hw hs hf
  drafted t evidence hd := by
    rcases draft_after ht hd with hd | ⟨-, hop, rfl, -⟩
    · exact (h.drafted t evidence hd).quiet (isQuiet_of_certified ht.allowed.guard.1 (isCertified_of_draft hd))
    · have hs := isSignable_of_signs ht.allowed.guard.1 ht.stored (by rw [hop]; rfl)
      exact (h.accounts hs).quiet (isQuiet_of_signs hop)
  issued b claims hb hu hclaims := by
    rcases List.mem_cons.mp hb with hb | hb
    · obtain rfl := Entry.act.inj hb
      obtain ⟨evidence, hd, hderived⟩ := ht.upload hclaims
      exact ((h.drafted b.tid evidence hd).truthful hderived).quiet (isQuiet_of_uploaded hclaims)
    · have hq := isQuiet_of_certified ht.allowed.guard.1 (isCertified_of_uploads hb hu)
      exact (h.issued b claims hb hu hclaims).quiet hq

lemma accountable_lasting : Lasting (within tally (@accountable d id)) id (Accounted id) where
  new userId tenantId requestedBy now h := by
    refine ⟨List.nodup_nil, fun wipe hw => absurd hw List.not_mem_nil, fun destination wipe hw => ?_,
      fun t evidence hd => ?_, fun b claims hb hu => ?_⟩
    · contradiction
    · simp [h.draft] at hd
    · simp [h.uploads hb] at hu
  act h ht := h.act ht
  env {log e request} h := by
    have hq : isQuiet id (.env e : (vault d).Entry) = true := rfl
    refine ⟨h.distinct, h.recorded, fun destination wipe hw hs hf => ?_, fun t evidence hd => ?_,
      fun b claims hb hu hclaims => ?_⟩
    · rw [followed_cons rfl]
      exact h.absent destination wipe hw hs hf
    · exact (h.drafted t evidence hd).quiet hq
    · have hb : Entry.act b ∈ log := (List.mem_cons.mp hb).resolve_left (by simp)
      exact (h.issued b claims hb hu hclaims).quiet hq

end Accounted

section Runs

def ledgerLabel : String := "bigquery:project.sales.orders::REDACT_IN_PLACE"

def wiping (t : ℕ) : List Outcome → List VaultEvent :=
  List.flatMap fun outcome => [.pick t true, .act t outcome]

/-- The first cascade removes two contacts, which is reported as a failure, and redacts two rows. -/
def removedThenFailed : List VaultEvent :=
  keyShredded ++ atHubspot
    ++ [.env (.serveEntries [ledger]), .start (.advanceRequest "request" .cascadePending "operation")] ++ steps 2 8
    ++ wiping 3 [.done .none, .done .none,
      .done (.wiped 2 (.ok { success := false, retryable := some false })), .done .none, .done .none]
    ++ [.act 3 (.done (.rows 2 none))] ++ steps 3 6

/-- The retry finds nothing left, at either place. -/
def retried : List VaultEvent :=
  removedThenFailed ++ [.start (.advanceRequest "request" .cascadeInProgress "operation")] ++ steps 4 8
    ++ wiping 5 [.done .none, .done .none,
      .done (.wiped 0 (.ok { success := true, recordsFound := some 0 })), .done .none]
    ++ [.act 5 (.done (.rows 0 none))] ++ steps 5 6 ++ (issued 5).take 8

end Runs

end ChameleonVault.Deletion
