import ChameleonVault.Deletion.Runs

/-! Who holds a claim on a request, what the signer has read under it, and which writes of the
status a call can make. -/

namespace ChameleonVault.Deletion

open Concurrency Interleaving Discipline

variable {d : Deployment} {guard : (vault d).Guard} {w w' : World} {log : (vault d).Log}
  {a : (vault d).Action} {id : String} {request : DeletionRequest} {t : ℕ} {target : Status}

section Writes

def Op.isClaim : Op → Bool
  | .claimTransition _ _ _ => true
  | _ => false

lemma changeOf_edit {c : Change} (h : changeOf id (.act a) = some c) :
    a.op.edit = some (id, c) ∧ a.op.tookEffect a.choice a.reply = true := by
  obtain ⟨t, op, choice, reply⟩ := a
  simp only [changeOf] at h
  split at h
  · rename_i id' c' he
    simp only [Option.ite_none_right_eq_some, Option.some.injEq] at h
    obtain ⟨⟨rfl, ht⟩, rfl⟩ := h
    exact ⟨he, ht⟩
  · contradiction

lemma edit_status {op : Op} (h : op.edit = some (id, .status target)) :
    (∃ allowedFromStatuses, op = .claimTransition id allowedFromStatuses target) ∨
      op = .updateDeletionRequestStatus id target := by
  cases op <;> cases h
  · exact .inl ⟨_, rfl⟩
  · exact .inr rfl

lemma claim_cases (h : Allowed handlers Keyed guard w log a w') (hl : w.deletionRequests.lookup id = some request)
    (hc : changeOf id (.act a) = some (.status target)) (ha : a.op.isClaim = true) :
    ∃ snapshot, (handlers.known a.tid log).concerns id snapshot ∧ (handlers.known a.tid log).claim = none ∧
      snapshot.status = request.status ∧ isValidTransition request.status target = true := by
  obtain ⟨he, ht⟩ := changeOf_edit hc
  have hallowed := h.allowed
  have hexec := h.exec
  obtain ⟨t, op, choice, reply⟩ := a
  simp only at he ht ha hallowed hexec ⊢
  rcases edit_status he with ⟨allowedFromStatuses, rfl⟩ | rfl
  · obtain ⟨snapshot, hq, hn, rfl, hv⟩ := hallowed
    rcases exec_cases hexec with ⟨-, answer, r, hrun, hr⟩ | ⟨hf, -⟩
    · rcases claimTransition_cases (Option.some.inj hrun) with ⟨current, hl', hs, -, -⟩ | ⟨current, rfl, -⟩
      · obtain rfl := Option.some.inj (hl'.symm.trans hl)
        have hs' : current.status = snapshot.status := List.mem_singleton.mp hs
        exact ⟨snapshot, hq, hn, hs'.symm, hs' ▸ hv⟩
      · contradiction
    · rw [ht] at hf
      contradiction
  · contradiction

lemma write_cases (h : Allowed handlers Keyed guard w log a w') (hc : changeOf id (.act a) = some (.status target))
    (ha : a.op.isClaim = false) :
    ∃ snapshot, (handlers.known a.tid log).concerns id snapshot ∧
      MayWrite (handlers.known a.tid log) snapshot target := by
  obtain ⟨he, -⟩ := changeOf_edit hc
  have hallowed := h.allowed
  obtain ⟨t, op, choice, reply⟩ := a
  simp only at he ha hallowed ⊢
  rcases edit_status he with ⟨allowedFromStatuses, rfl⟩ | rfl
  · contradiction
  · exact hallowed

lemma Touch.claim (h : Touch guard id w log a w' request) (hc : changeOf id (.act a) = some (.status target))
    (ha : a.op.isClaim = true) :
    ∃ snapshot, (handlers.known a.tid log).concerns id snapshot ∧ (handlers.known a.tid log).claim = none ∧
      snapshot.status = request.status ∧ isValidTransition request.status target = true :=
  claim_cases h.allowed h.stored hc ha

lemma Touch.write (h : Touch guard id w log a w' request) (hc : changeOf id (.act a) = some (.status target))
    (ha : a.op.isClaim = false) :
    ∃ snapshot, (handlers.known a.tid log).concerns id snapshot ∧ MayWrite (handlers.known a.tid log) snapshot target :=
  write_cases h.allowed hc ha

lemma Touch.certificateIssued (h : Touch guard id w log a w' request)
    (hc : changeOf id (.act a) = some (.status .certificateIssued)) : request.status = .cascadeComplete := by
  cases ha : a.op.isClaim with
  | true =>
    obtain ⟨snapshot, -, -, -, hv⟩ := h.claim hc ha
    exact eq_of_isValidTransition_certificateIssued hv
  | false =>
    obtain ⟨snapshot, -, hw⟩ := h.write hc ha
    contradiction

def statusOf (id : String) (e : (vault d).Entry) : Option Status :=
  match changeOf id e with
  | some (.status newStatus) => some newStatus
  | _ => none

lemma statusOf_eq {e : (vault d).Entry} : statusOf id e = some target ↔ changeOf id e = some (.status target) := by
  simp only [statusOf]
  cases changeOf id e with
  | none => simp
  | some c => cases c <;> simp

lemma status_after (now : KeyRegistry.Date) (e : (vault d).Entry) :
    (Change.after now (changeOf id e) request).status = (statusOf id e).getD request.status := by
  simp only [statusOf]
  cases changeOf id e with
  | none => rfl
  | some c => cases c <;> rfl

lemma serves_of_statusOf (h : statusOf id (.act a) = some target) : a.op.serves = some id := by
  obtain ⟨he, -⟩ := changeOf_edit (statusOf_eq.mp h)
  rcases edit_status he with ⟨allowedFromStatuses, hop⟩ | hop <;> rw [hop] <;> rfl

lemma Touch.not_claim (h : Touch guard id w log a w' request) (hr : request.status = .certificateIssued)
    (hs : statusOf id (.act a) = some target) : a.op.isClaim = false := by
  rw [Bool.eq_false_iff]
  intro ha
  obtain ⟨snapshot, -, -, -, hv⟩ := h.claim (statusOf_eq.mp hs) ha
  rw [hr, not_isValidTransition_from_certificateIssued] at hv
  contradiction

lemma Untouched.statusOf (h : Untouched id log) {e : (vault d).Entry} (he : e ∈ log) : statusOf id e = none := by
  cases e with
  | env e => rfl
  | act a =>
    cases hs : Deletion.statusOf id (.act a) with
    | none => rfl
    | some newStatus => exact absurd (serves_of_statusOf hs) (h.unserved a he)

lemma Touch.wipe (h : Touch guard id w log a w' request) {destination : String} {status : WipeStatus}
    {details : WipeDetails} (hc : changeOf id (.act a) = some (.wipe destination status details)) :
    status = .succeeded ∨ status = .failed := by
  obtain ⟨he, -⟩ := changeOf_edit hc
  have hallowed := h.allowed.allowed
  obtain ⟨t, op, choice, reply⟩ := a
  cases op <;> cases he
  exact hallowed

def isRecorded (wipe : JanitorWipe) : Prop := wipe.status = .succeeded ∨ wipe.status = .failed

lemma Touch.recorded (h : Touch guard id w log a w' request) (hr : ∀ wipe ∈ request.janitorWipes, isRecorded wipe) :
    ∀ wipe ∈ (Change.after w.clock (changeOf id (.act a)) request).janitorWipes, isRecorded wipe := by
  intro wipe hw
  cases hc : changeOf id (.act a) with
  | none =>
    rw [hc] at hw
    exact hr wipe hw
  | some change =>
    rw [hc] at hw
    cases change with
    | status newStatus => exact hr wipe hw
    | attach fields => exact hr wipe hw
    | wipe destination status details =>
      rcases mem_recordWipe hw with rfl | hw
      · exact h.wipe hc
      · exact hr wipe hw

end Writes

section Holders

def isConfirmed : (vault d).Entry → Bool
  | .act ⟨_, _, .unconfirmed _, _⟩ => false
  | _ => true

/-- Whether call `t` has claimed the request, with the side effect of its claim still to come. -/
def holds (id : String) (target : Status) (log : (vault d).Log) (t : ℕ) : Bool :=
  (handlers.known t log).request.any (fun request : DeletionRequest => request.deletionRequestId = id)
    && (handlers.known t log).claim = some target

lemma holds_iff : holds id target log t = true ↔
    ∃ snapshot, (handlers.known t log).concerns id snapshot ∧ (handlers.known t log).claim = some target := by
  simp only [holds, Bool.and_eq_true, Option.any_eq_true, decide_eq_true_eq]
  constructor
  · rintro ⟨⟨snapshot, hr, hid⟩, hc⟩
    exact ⟨snapshot, ⟨hr, hid⟩, hc⟩
  · rintro ⟨snapshot, ⟨hr, hid⟩, hc⟩
    exact ⟨⟨snapshot, hr, hid⟩, hc⟩

lemma holds_start (h : holds id target log t = true) : handlers.known t log ≠ handlers.start := by
  obtain ⟨snapshot, -, hc⟩ := holds_iff.mp h
  intro hk
  rw [hk] at hc
  contradiction

lemma Untouched.holds (h : Untouched id log) (target : Status) (t : ℕ) : holds id target log t = false := by
  rw [Bool.eq_false_iff]
  intro ht
  obtain ⟨snapshot, ⟨hr, hid⟩, -⟩ := holds_iff.mp ht
  exact h.unread t snapshot hr hid

def heldByOther (id : String) (target : Status) (log : (vault d).Log) (t : ℕ) : Bool :=
  anyThread (fun u => u ≠ t && holds id target log u) log

lemma heldByOther_iff : heldByOther id target log t = true ↔ ∃ u, u ≠ t ∧ holds id target log u = true := by
  rw [heldByOther, anyThread_iff]
  · simp
  · intro u hu
    exact holds_start (Bool.and_eq_true _ _ ▸ hu).2

def Op.releases : (op : Op) → Except String op.Res → Bool
  | .getDeletionRequest _, .ok _ => true
  | .updateDeletionRequestStatus _ _, _ => true
  | .shredKeyForUser _ _ _, .ok _ => true
  | .uploadCertificate _ _ _ _ _ _, .ok _ => true
  | _, _ => false

lemma releases_of_statusOf (h : statusOf id (.act a) = some target) (ha : a.op.isClaim = false) :
    a.op.releases a.reply = true := by
  obtain ⟨he, -⟩ := changeOf_edit (statusOf_eq.mp h)
  obtain ⟨t, op, choice, reply⟩ := a
  rcases edit_status he with ⟨allowedFromStatuses, rfl⟩ | rfl
  · contradiction
  · simp [Op.releases]

lemma next_claim {q : Knowledge} {op : Op} {reply : Except String op.Res}
    (h : (handlers.next q op reply).claim = some target) :
    (op.releases reply = false ∧ q.claim = some target ∧ (handlers.next q op reply).request = q.request) ∨
    (∃ id' allowedFromStatuses, op = .claimTransition id' allowedFromStatuses target ∧
      op.tookEffect (.done .none) reply = true ∧ isExclusive target = true ∧
      (handlers.next q op reply).request = q.request ∧ (handlers.next q op reply).evidence = none) := by
  cases op
  case claimTransition id' allowedFromStatuses newStatus =>
    rcases reply with e | (_ | current)
    · exact .inl ⟨rfl, h, rfl⟩
    · simp only [handlers, Knowledge.claimed] at h ⊢
      split at h
      · rename_i hx
        obtain rfl := Option.some.inj h
        exact .inr ⟨id', allowedFromStatuses, rfl, rfl, hx, by simp [hx], by simp [hx]⟩
      · rename_i hx
        exact .inl ⟨rfl, h, by simp [hx]⟩
    · exact .inl ⟨rfl, h, rfl⟩
  all_goals cases reply <;> first | contradiction | exact .inl ⟨rfl, h, rfl⟩

lemma tookEffect_ok {op : Op} {choice : Outcome} {reply : Except String op.Res}
    (h : op.exec d choice w = some (reply, w')) (hr : op.tookEffect (.done .none) reply = true) :
    op.tookEffect choice reply = true := by
  cases reply with
  | error e => contradiction
  | ok r =>
    obtain ⟨answer, rfl, -⟩ := exec_ok h
    exact hr

lemma holds_after (ha : Allowed handlers Keyed guard w log a w') (h : holds id target (.act a :: log) t = true) :
    (holds id target log t = true ∧ (a.tid = t → a.op.releases a.reply = false)) ∨
    (a.tid = t ∧ changeOf id (.act a) = some (.status target) ∧ a.op.isClaim = true ∧
      (handlers.known t (.act a :: log)).evidence = none) := by
  by_cases ht : a.tid = t
  · subst ht
    obtain ⟨snapshot, hq, hc⟩ := holds_iff.mp h
    rw [known_act_self] at hq hc
    rcases next_claim hc with ⟨hrel, hc', hreq⟩ | ⟨id', allowedFromStatuses, hop, hok, -, hreq, hev⟩
    · exact .inl ⟨holds_iff.mpr ⟨snapshot, ⟨hreq ▸ hq.1, hq.2⟩, hc'⟩, fun _ => hrel⟩
    · have heff : a.op.tookEffect a.choice a.reply = true := tookEffect_ok ha.exec hok
      obtain ⟨snapshot', hq', hid'⟩ := concerns_of_allowed ha.allowed (show a.op.serves = some id' by rw [hop]; rfl)
      have hs : snapshot' = snapshot := Option.some.inj (hq'.symm.trans (hreq.symm.trans hq.1))
      have hid : id' = id := by rw [← hid', hs, hq.2]
      refine .inr ⟨rfl, ?_, by rw [hop]; rfl, by rw [known_act_self]; exact hev⟩
      obtain ⟨t, op, choice, reply⟩ := a
      simp only at hop heff
      subst hop
      simp [changeOf, Op.edit, hid, heff]
  · rw [holds, known_act_ne ht] at h
    exact .inl ⟨h, fun he => absurd he ht⟩

lemma holds_kept (ha : Allowed handlers Keyed guard w log a w') (h : holds id target log a.tid = true)
    (hr : a.op.releases a.reply = false) : holds id target (.act a :: log) a.tid = true := by
  obtain ⟨snapshot, hq, hc⟩ := holds_iff.mp h
  have hallowed := ha.allowed
  rw [holds_iff, known_act_self]
  obtain ⟨t, op, choice, reply⟩ := a
  simp only at hq hc hr hallowed ⊢
  cases op
  case claimTransition id' allowedFromStatuses newStatus =>
    obtain ⟨-, -, hn, -⟩ := hallowed
    rw [hn] at hc
    contradiction
  all_goals cases reply <;> first | contradiction | exact ⟨snapshot, hq, hc⟩

/-- Who holds a claim writes the status only by letting go of it. -/
lemma Touch.releases_of_holds {claimed : Status} (h : Touch guard id w log a w' request)
    (hh : holds id claimed log a.tid = true) (hs : statusOf id (.act a) = some target) :
    a.op.releases a.reply = true := by
  refine releases_of_statusOf hs ?_
  rw [Bool.eq_false_iff]
  intro hcl
  obtain ⟨snapshot, -, hn, -⟩ := h.claim (statusOf_eq.mp hs) hcl
  obtain ⟨snapshot', -, hc⟩ := holds_iff.mp hh
  rw [hn] at hc
  contradiction

lemma Touch.holds_claimed (h : Touch guard id w log a w' request) (hc : changeOf id (.act a) = some (.status target))
    (hcl : a.op.isClaim = true) (hx : isExclusive target = true) (hconfirmed : isConfirmed (.act a) = true) :
    holds id target (.act a :: log) a.tid = true := by
  obtain ⟨snapshot, hq, -⟩ := h.claim hc hcl
  obtain ⟨he, ht⟩ := changeOf_edit hc
  have hexec := h.allowed.exec
  rw [holds_iff, known_act_self]
  obtain ⟨t, op, choice, reply⟩ := a
  simp only at he ht hcl hexec hq ⊢
  rcases edit_status he with ⟨allowedFromStatuses, rfl⟩ | rfl
  · have hreply : reply = .ok .claimed := by
      cases choice with
      | done answer =>
        rcases reply with e | (_ | current)
        · contradiction
        · rfl
        · contradiction
      | failed => contradiction
      | unconfirmed answer => contradiction
    subst hreply
    simp only [handlers, Knowledge.claimed, hx, if_true]
    exact ⟨snapshot, hq, trivial⟩
  · contradiction

/-- The request as the signer read it for the certificate that call `t` is issuing. -/
def draft (id : String) (log : (vault d).Log) (t : ℕ) : Option DeletionRequest :=
  if holds id .certificateIssued log t = true then (handlers.known t log).evidence else none

lemma draft_iff {evidence : DeletionRequest} : draft id log t = some evidence ↔
    holds id .certificateIssued log t = true ∧ (handlers.known t log).evidence = some evidence := by
  simp [draft]

lemma Untouched.draft (h : Untouched id log) (t : ℕ) : draft id log t = none := by
  simp [Deletion.draft, h.holds]

lemma draft_after (h : Touch guard id w log a w' request) {evidence : DeletionRequest}
    (hd : draft id (.act a :: log) t = some evidence) :
    draft id log t = some evidence ∨
    (a.tid = t ∧ a.op = .signerDeletionRequest id ∧ evidence = request ∧ holds id .certificateIssued log t = true) := by
  obtain ⟨hh, he⟩ := draft_iff.mp hd
  rcases holds_after h.allowed hh with ⟨hb, -⟩ | ⟨-, -, -, hn⟩
  · by_cases ht : a.tid = t
    · subst ht
      rw [known_act_self] at he
      have hallowed := h.allowed.allowed
      have hexec := h.allowed.exec
      obtain ⟨t, op, choice, reply⟩ := a
      simp only at hb he hallowed hexec ⊢
      have kept (hk : (handlers.known t log).evidence = some evidence) : draft id log t = some evidence :=
        draft_iff.mpr ⟨hb, hk⟩
      cases op
      case claimTransition id' allowedFromStatuses newStatus =>
        rcases reply with e | (_ | current)
        · exact .inl (kept he)
        · simp only [handlers, Knowledge.claimed] at he
          split at he
          · contradiction
          · exact .inl (kept he)
        · exact .inl (kept he)
      case signerDeletionRequest id' =>
        cases reply with
        | error e => exact .inl (kept he)
        | ok result =>
          obtain ⟨snapshot, ⟨hr, hid⟩, -⟩ := holds_iff.mp hb
          obtain ⟨snapshot', ⟨hr', hid'⟩, -⟩ := hallowed
          obtain rfl := Option.some.inj (hr.symm.trans hr')
          obtain rfl : id' = id := hid'.symm.trans hid
          obtain ⟨answer, -, hrun⟩ := exec_ok hexec
          have hl := (Prod.mk.inj (Except.ok.inj (Option.some.inj hrun))).1
          rw [h.stored] at hl
          obtain rfl : result = some evidence := he
          exact .inr ⟨trivial, rfl, (Option.some.inj hl).symm, hb⟩
      all_goals cases reply <;> first | contradiction | exact .inl (kept he)
    · rw [known_act_ne ht] at he
      exact .inl (draft_iff.mpr ⟨hb, he⟩)
  · rw [hn] at he
    contradiction

def uploads (id : String) : (vault d).Entry → Bool
  | .act ⟨_, .uploadCertificate userId id' chained tenantId tsaTimestamp rekorEntry, choice, reply⟩ =>
    id' = id &&
      (Op.uploadCertificate userId id' chained tenantId tsaTimestamp rekorEntry).tookEffect choice reply
  | _ => false

lemma uploads_op (h : uploads id (.act a) = true) :
    ∃ userId chained tenantId tsaTimestamp rekorEntry,
      a.op = .uploadCertificate userId id chained tenantId tsaTimestamp rekorEntry := by
  obtain ⟨t, op, choice, reply⟩ := a
  cases op
  case uploadCertificate userId id' chained tenantId tsaTimestamp rekorEntry =>
    simp only [uploads, Bool.and_eq_true, decide_eq_true_eq] at h
    exact ⟨userId, chained, tenantId, tsaTimestamp, rekorEntry, by rw [h.1]⟩
  all_goals contradiction

lemma Untouched.uploads (h : Untouched id log) {e : (vault d).Entry} (he : e ∈ log) : uploads id e = false := by
  cases e with
  | env e => rfl
  | act a =>
    rw [Bool.eq_false_iff]
    intro hu
    obtain ⟨userId, chained, tenantId, tsaTimestamp, rekorEntry, hop⟩ := uploads_op hu
    exact h.unserved a he (by rw [hop]; rfl)

def Op.uploaded : Op → Option (String × Claims)
  | .uploadCertificate _ id chained _ _ _ => some (id, chained.certificate.claims)
  | _ => none

lemma serves_of_uploaded {op : Op} {claims : Claims} (h : op.uploaded = some (id, claims)) : op.serves = some id := by
  cases op <;> cases h
  rfl

lemma Touch.upload (h : Touch guard id w log a w' request) {claims : Claims}
    (ha : a.op.uploaded = some (id, claims)) :
    ∃ evidence, draft id log a.tid = some evidence ∧ DerivedFrom evidence claims := by
  have hallowed := h.allowed.allowed
  obtain ⟨t, op, choice, reply⟩ := a
  cases op <;> cases ha
  obtain ⟨snapshot, hq, hc, evidence, he, hd⟩ := hallowed
  exact ⟨evidence, draft_iff.mpr ⟨holds_iff.mpr ⟨snapshot, hq, hc⟩, he⟩, hd⟩

def certifying (id : String) (request : DeletionRequest) (log : (vault d).Log) : Bool :=
  request.status ∈ [.cascadeComplete, .certificateIssued] || anyThread (holds id .certificateIssued log) log

lemma certifying_iff : certifying id request log = true ↔
    (request.status = .cascadeComplete ∨ request.status = .certificateIssued) ∨
      ∃ t, holds id .certificateIssued log t = true := by
  simp only [certifying, Bool.or_eq_true, anyThread_iff (fun _ => holds_start), decide_eq_true_eq, List.mem_cons,
    List.not_mem_nil, or_false]

lemma certifying_of_holds (h : holds id .certificateIssued log t = true) : certifying id request log = true :=
  certifying_iff.mpr (.inr ⟨t, h⟩)

lemma Untouched.certifying (h : Untouched id log) {userId tenantId : String} {requestedBy : Option String}
    {now : KeyRegistry.Date} : certifying id (.new userId id tenantId requestedBy now) log = false := by
  rw [Bool.eq_false_iff]
  intro hc
  rcases certifying_iff.mp hc with (hs | hs) | ⟨t, ht⟩
  · contradiction
  · contradiction
  · rw [h.holds] at ht
    contradiction

lemma Touch.certifying_after (h : Touch guard id w log a w' request)
    (hc : certifying id (Change.after w.clock (changeOf id (.act a)) request) (.act a :: log) = true) :
    certifying id request log = true ∨ changeOf id (.act a) = some (.status .cascadeComplete) := by
  rcases certifying_iff.mp hc with hs | ⟨t, ht⟩
  · rw [status_after] at hs
    cases hst : statusOf id (.act a) with
    | none =>
      rw [hst] at hs
      exact .inl (certifying_iff.mpr (.inl hs))
    | some newStatus =>
      rw [hst] at hs
      rw [statusOf_eq] at hst
      rcases hs with rfl | rfl
      · exact .inr hst
      · exact .inl (certifying_iff.mpr (.inl (.inl (h.certificateIssued hst))))
  · rcases holds_after h.allowed ht with ⟨hb, -⟩ | ⟨-, hst, -⟩
    · exact .inl (certifying_of_holds hb)
    · exact .inl (certifying_iff.mpr (.inl (.inl (h.certificateIssued hst))))

end Holders

section Releases

variable {claimed newStatus : Status}

/-- Whether call `t` found the request in this status when it last read it. -/
def hasRead (id : String) (status : Status) (log : (vault d).Log) (t : ℕ) : Bool :=
  (handlers.known t log).request.any fun request : DeletionRequest => request.deletionRequestId = id ∧ request.status = status

lemma hasRead_iff {status : Status} : hasRead id status log t = true ↔
    ∃ snapshot, (handlers.known t log).concerns id snapshot ∧ snapshot.status = status := by
  simp only [hasRead, Option.any_eq_true, decide_eq_true_eq]
  constructor
  · rintro ⟨snapshot, hr, hid, hs⟩
    exact ⟨snapshot, ⟨hr, hid⟩, hs⟩
  · rintro ⟨snapshot, ⟨hr, hid⟩, hs⟩
    exact ⟨snapshot, hr, hid, hs⟩

lemma holds_of_claim {snapshot : DeletionRequest} (hq : (handlers.known t log).concerns id snapshot)
    (hc : (handlers.known t log).claim = some claimed) : holds id claimed log t = true :=
  holds_iff.mpr ⟨snapshot, hq, hc⟩

lemma shortcut_young {snapshot : DeletionRequest}
    (hy : snapshot.status = .shredRequested ∨ snapshot.status = .keyDestroyed)
    (hv : isValidTransition snapshot.status .cascadePending = true ∨
      isValidTransition snapshot.status .cascadeInProgress = true) : snapshot.status = .keyDestroyed := by
  rcases hy with hy | hy
  · rw [hy] at hv
    rcases hv with hv | hv <;> contradiction
  · exact hy

def Op.overwrites : Op → Option (String × Status)
  | .updateDeletionRequestStatus id newStatus => some (id, newStatus)
  | _ => none

/-- The side effect of a claim is reported as done. -/
def Op.achieves (id : String) (claimed : Status) : (op : Op) → Except String op.Res → Bool
  | .shredKeyForUser _ _ id', .ok _ => claimed = .keyDestroyed && id' = id
  | .uploadCertificate _ id' _ _ _ _, .ok _ => claimed = .certificateIssued && id' = id
  | _, _ => false

lemma eq_of_overwrites {op : Op} (h : op.overwrites = some (id, newStatus)) :
    op = .updateDeletionRequestStatus id newStatus := by
  cases op <;> cases h
  rfl

lemma mayWrite_claimed {q : Knowledge} {snapshot : DeletionRequest}
    (h : MayWrite q snapshot newStatus) (hc : q.claim = some claimed) :
    snapshot.status = newStatus ∧ isValidTransition newStatus claimed = true := by
  cases h with
  | keyRollback hk hs =>
    obtain rfl := Option.some.inj (hk.symm.trans hc)
    exact ⟨hs, rfl⟩
  | certificateRollback hk hs =>
    obtain rfl := Option.some.inj (hk.symm.trans hc)
    exact ⟨hs, rfl⟩
  | finished hn =>
    rw [hn] at hc
    contradiction
  | shortcut hn =>
    rw [hn] at hc
    contradiction

/-- Who holds a claim and writes `CASCADE_COMPLETE` puts back what it claimed from. -/
lemma Touch.holds_of_complete (h : Touch guard id w log a w' request)
    (hs : statusOf id (.act a) = some .cascadeComplete) (hc : (handlers.known a.tid log).claim.isSome = true) :
    holds id .certificateIssued log a.tid = true := by
  cases hcl : a.op.isClaim with
  | true =>
    obtain ⟨snapshot, -, hn, -⟩ := h.claim (statusOf_eq.mp hs) hcl
    simp [hn] at hc
  | false =>
    obtain ⟨snapshot, hq, hm⟩ := h.write (statusOf_eq.mp hs) hcl
    cases hm with
    | certificateRollback hk => exact holds_of_claim hq hk
    | finished hn => simp [hn] at hc
    | shortcut hn => simp [hn] at hc

/-- A claim is let go of by its side effect or by the rollback, and by nothing else. -/
lemma released_cases (h : Allowed handlers Keyed guard w log a w') (hh : holds id claimed log a.tid = true)
    (hr : a.op.releases a.reply = true) :
    a.op.achieves id claimed a.reply = true ∨ ∃ newStatus, a.op.overwrites = some (id, newStatus) := by
  obtain ⟨held, hq, hc⟩ := holds_iff.mp hh
  have hallowed := h.allowed
  have own {snapshot : DeletionRequest} {id' : String} (hq' : (handlers.known a.tid log).concerns id' snapshot) :
      id' = id := by
    obtain rfl := Option.some.inj (hq.1.symm.trans hq'.1)
    exact hq'.2.symm.trans hq.2
  obtain ⟨t, op, choice, reply⟩ := a
  simp only at hallowed hr hc own ⊢
  cases op
  case getDeletionRequest id' =>
    have hn : (handlers.known t log).claim = none := hallowed
    rw [hn] at hc
    contradiction
  case updateDeletionRequestStatus id' newStatus =>
    obtain ⟨snapshot, hq', -⟩ := hallowed
    rw [own hq']
    exact .inr ⟨newStatus, rfl⟩
  case shredKeyForUser userId tenantId id' =>
    obtain ⟨snapshot, hq', hk, -⟩ := hallowed
    obtain rfl := Option.some.inj (hk.symm.trans hc)
    cases reply with
    | error e => contradiction
    | ok u => exact .inl (by simp [Op.achieves, own hq'])
  case uploadCertificate userId id' chained tenantId tsaTimestamp rekorEntry =>
    obtain ⟨snapshot, hq', hk, -⟩ := hallowed
    obtain rfl := Option.some.inj (hk.symm.trans hc)
    cases reply with
    | error e => contradiction
    | ok u => exact .inl (by simp [Op.achieves, own hq'])
  all_goals contradiction

end Releases

end ChameleonVault.Deletion
