import ChameleonVault.Deletion.Holders

/-! A request that has moved on is a request whose key is gone: when this holds, and the edge of
the table that breaks it. -/

namespace ChameleonVault.Deletion

open Concurrency Interleaving Discipline

variable {d : Deployment} {w w' : World} {log : (vault d).Log} {a : (vault d).Action} {id : String}
  {request : DeletionRequest}

def shreds (userId tenantId : String) : (vault d).Entry → Bool
  | .act ⟨_, .shredKeyForUser userId' tenantId' id, choice, reply⟩ =>
    userId' = userId && tenantId' = tenantId && (Op.shredKeyForUser userId' tenantId' id).tookEffect choice reply
  | _ => false

def shreddedSince (id userId tenantId : String) : (vault d).Log → Bool
  | [] => false
  | e :: log => (shreds userId tenantId e && created id log) || shreddedSince id userId tenantId log

def storedStatus (id : String) (w : World) : Option Status :=
  (w.deletionRequests.lookup id).map DeletionRequest.status

/-- A request leaves `SHRED_REQUESTED` by the claim of its key's destruction only, which is confirmed
and rolled back where the shred fails. While that shred is to come no other call writes the status, and
after a rollback none takes the shortcut that it found before. -/
def keyFirst (id : String) : (vault d).Guard := fun w log e =>
  (match e with
    | .act a =>
      -- the rollback of a failed shred
      (!(a.op.overwrites.isSome && holds id .keyDestroyed log a.tid) || (statusOf id e).isSome) &&
      (statusOf id e).all fun newStatus =>
        !heldByOther id .keyDestroyed log a.tid && (newStatus ≠ .keyDestroyed || isConfirmed e) &&
        (storedStatus id w ≠ some .shredRequested || (newStatus ≠ .cascadePartialFailure &&
          !(newStatus = .cascadeComplete && hasRead id .keyDestroyed log a.tid)))
    | .env _ => true) = true

instance : ∀ w log e, Decidable (@keyFirst d id w log e) := fun _ _ _ => inferInstanceAs (Decidable (_ = true))

structure KeyFirst (id : String) (request : DeletionRequest) (log : (vault d).Log) : Prop where
  stage : request.status = .shredRequested ∨
    (request.status = .keyDestroyed ∧ ∃ t, holds id .keyDestroyed log t = true) ∨
    shreddedSince id request.userId request.tenant log = true
  read (t : ℕ) (snapshot : DeletionRequest) : shreddedSince id request.userId request.tenant log = false →
    (handlers.known t log).concerns id snapshot →
      snapshot.status = .shredRequested ∨ snapshot.status = .keyDestroyed

lemma keyFirst_status (h : Touch (keyFirst id) id w log a w' request) {newStatus : Status}
    (hs : statusOf id (.act a) = some newStatus) :
    heldByOther id .keyDestroyed log a.tid = false ∧ (newStatus = .keyDestroyed → isConfirmed (.act a) = true) ∧
      (request.status = .shredRequested → newStatus ≠ .cascadePartialFailure ∧
        (newStatus = .cascadeComplete → hasRead id .keyDestroyed log a.tid = false)) := by
  have hg := h.allowed.guard
  simp only [keyFirst, hs, storedStatus, h.stored, Option.all_some, Option.map_some, Option.isSome_some, Bool.or_true,
    Bool.true_and, Bool.and_eq_true, Bool.or_eq_true, Bool.not_eq_true', decide_eq_true_eq, ne_eq, Option.some.injEq,
    Bool.and_eq_false_iff, decide_eq_false_iff_not] at hg
  obtain ⟨⟨hother, hconfirmed⟩, hstored⟩ := hg
  exact ⟨hother, fun he => hconfirmed.resolve_left fun hn => hn he, fun he =>
    ⟨(hstored.resolve_left fun hn => hn he).1, fun hc => (hstored.resolve_left fun hn => hn he).2.resolve_left fun hn => hn hc⟩⟩

lemma keyFirst_rollback (h : Touch (keyFirst id) id w log a w' request) {newStatus : Status}
    (ho : a.op.overwrites = some (id, newStatus)) (hh : holds id .keyDestroyed log a.tid = true) :
    ∃ newStatus, statusOf id (.act a) = some newStatus := by
  have hg := h.allowed.guard
  simp only [keyFirst, ho, hh, Option.isSome_some, Bool.and_true, Bool.not_true, Bool.false_or, Bool.and_eq_true] at hg
  exact Option.isSome_iff_exists.mp hg.1

lemma shreds_of_achieves {guard : (vault d).Guard} (h : Touch guard id w log a w' request)
    (hs : a.op.achieves id .keyDestroyed a.reply = true) : shreds request.userId request.tenant (.act a) = true := by
  have hallowed := h.allowed.allowed
  have hexec := h.allowed.exec
  obtain ⟨t, op, choice, reply⟩ := a
  cases op
  case shredKeyForUser userId tenantId id' =>
    cases reply with
    | error e => contradiction
    | ok u =>
      obtain rfl : id' = id := by simpa [Op.achieves] using hs
      have heff : (Op.shredKeyForUser userId tenantId id').tookEffect choice (.ok u) = true := tookEffect_ok (d := d) hexec rfl
      obtain ⟨snapshot, ⟨hr, hid⟩, -, rfl, rfl⟩ := hallowed
      obtain ⟨stored, hl, hu, ht⟩ := h.sound.read t snapshot hr
      rw [hid, h.stored] at hl
      obtain rfl := Option.some.inj hl
      have htenant : request.tenant = snapshot.tenant := by simp only [DeletionRequest.tenant, ht]
      simp [shreds, hu, htenant, heff]
  case uploadCertificate userId id' chained tenantId tsaTimestamp rekorEntry =>
    cases reply <;> simp [Op.achieves] at hs
  all_goals contradiction

lemma shreddedSince_kept {userId tenantId : String} (h : shreddedSince id userId tenantId log = true)
    (e : (vault d).Entry) : shreddedSince id userId tenantId (e :: log) = true := by
  simp [shreddedSince, h]

-- A request whose key is there was read as requested, or in the window of its shred.
lemma KeyFirst.write (h : KeyFirst id request log) (ht : Touch (keyFirst id) id w log a w' request)
    (hst : request.status = .shredRequested) (hshred : shreddedSince id request.userId request.tenant log = false)
    {newStatus : Status} (hs : statusOf id (.act a) = some newStatus) :
    newStatus = .shredRequested ∨
      (newStatus = .keyDestroyed ∧ ∃ t, holds id .keyDestroyed (.act a :: log) t = true) := by
  obtain ⟨-, hconfirmed, hfirst⟩ := keyFirst_status ht hs
  obtain ⟨hedge, hshortcut⟩ := hfirst hst
  cases hcl : a.op.isClaim with
  | true =>
    obtain ⟨snapshot, -, -, -, hv⟩ := ht.claim (statusOf_eq.mp hs) hcl
    rw [hst] at hv
    have hnew : newStatus = .keyDestroyed := by
      cases newStatus <;> first | rfl | contradiction
    subst hnew
    exact .inr ⟨rfl, a.tid, ht.holds_claimed (statusOf_eq.mp hs) hcl rfl (hconfirmed rfl)⟩
  | false =>
    obtain ⟨snapshot, hq, hm⟩ := ht.write (statusOf_eq.mp hs) hcl
    have hy := h.read a.tid snapshot hshred hq
    cases hm with
    | keyRollback => exact .inl rfl
    | certificateRollback _ hc => rcases hy with hy | hy <;> rw [hy] at hc <;> contradiction
    | finished _ hp => rcases hy with hy | hy <;> rw [hy] at hp <;> rcases hp with hp | hp <;> contradiction
    | shortcut _ _ hv =>
      have hr : hasRead id .keyDestroyed log a.tid = true := hasRead_iff.mpr ⟨snapshot, hq, shortcut_young hy hv⟩
      rw [hshortcut rfl] at hr
      contradiction

lemma KeyFirst.pending (ht : Touch (keyFirst id) id w log a w' request) {t : ℕ}
    (hh : holds id .keyDestroyed log t = true) :
    (statusOf id (.act a) = none ∧ holds id .keyDestroyed (.act a :: log) t = true) ∨
      statusOf id (.act a) = some .shredRequested ∨ shreds request.userId request.tenant (.act a) = true := by
  by_cases hself : a.tid = t
  · subst hself
    cases hr : a.op.releases a.reply with
    | false =>
      have hs : statusOf id (.act a) = none := by
        by_contra hn
        obtain ⟨newStatus, hs⟩ := Option.ne_none_iff_exists'.mp hn
        rw [ht.releases_of_holds hh hs] at hr
        contradiction
      exact .inl ⟨hs, holds_kept ht.allowed hh hr⟩
    | true =>
      rcases released_cases ht.allowed hh hr with hdone | ⟨newStatus, ho⟩
      · exact .inr (.inr (shreds_of_achieves ht hdone))
      · obtain ⟨newStatus', hs⟩ := keyFirst_rollback ht ho hh
        obtain ⟨snapshot, -, hc⟩ := holds_iff.mp hh
        have hcl : a.op.isClaim = false := by rw [eq_of_overwrites ho]; rfl
        obtain ⟨snapshot', -, hm⟩ := ht.write (statusOf_eq.mp hs) hcl
        have hv := (mayWrite_claimed hm hc).2
        rw [eq_of_isValidTransition_keyDestroyed hv] at hs
        exact .inr (.inl hs)
  · refine .inl ⟨?_, ?_⟩
    · by_contra hn
      obtain ⟨newStatus, hs⟩ := Option.ne_none_iff_exists'.mp hn
      have hother : heldByOther id .keyDestroyed log a.tid = true := heldByOther_iff.mpr ⟨t, Ne.symm hself, hh⟩
      rw [(keyFirst_status ht hs).1] at hother
      contradiction
    · rw [holds, known_act_ne hself]
      exact hh

lemma KeyFirst.act (h : KeyFirst id request log) (ht : Touch (keyFirst id) id w log a w' request) :
    KeyFirst id (Change.after w.clock (changeOf id (.act a)) request) (.act a :: log) := by
  refine ⟨?_, fun t snapshot hshred hq => ?_⟩
  · simp only [status_after, after_userId, after_tenant]
    cases hshred : shreddedSince id request.userId request.tenant log with
    | true => exact .inr (.inr (shreddedSince_kept hshred _))
    | false =>
      rcases h.stage with hst | ⟨hst, t, hh⟩ | hs
      · cases hs : statusOf id (.act a) with
        | none => exact .inl hst
        | some newStatus => exact (h.write ht hst hshred hs).imp (fun h => h) .inl
      · rcases KeyFirst.pending ht hh with ⟨hs, hh⟩ | hs | hs
        · rw [hs]
          exact .inr (.inl ⟨hst, t, hh⟩)
        · rw [hs]
          exact .inl rfl
        · exact .inr (.inr (by simp [shreddedSince, hs, ht.created]))
      · rw [hs] at hshred
        contradiction
  · simp only [after_userId, after_tenant] at hshred
    have hbefore : shreddedSince id request.userId request.tenant log = false := by
      rw [Bool.eq_false_iff]
      intro hs
      rw [shreddedSince_kept hs] at hshred
      contradiction
    rcases request_after ht.allowed hq.1 with hr | ⟨-, hl⟩
    · exact h.read t snapshot hbefore ⟨hr, hq.2⟩
    · rw [hq.2, ht.stored] at hl
      obtain rfl := Option.some.inj hl
      rcases h.stage with hst | ⟨hst, -⟩ | hs
      · exact .inl hst
      · exact .inr hst
      · rw [hs] at hbefore
        contradiction

lemma keyFirst_lasting : Lasting (@keyFirst d id) id (KeyFirst id) where
  new _ _ _ _ h := ⟨.inl rfl, fun t snapshot _ hq => absurd hq.2 (h.unread t snapshot hq.1)⟩
  act h ht := h.act ht
  env h := ⟨h.stage, h.read⟩

def hasProgressed (status : Status) : Prop :=
  status ∈ [.cascadePending, .cascadeInProgress, .cascadeComplete, .certificateIssued]

instance (status : Status) : Decidable (hasProgressed status) := inferInstanceAs (Decidable (_ ∈ _))

/-- Where the destruction of a key is claimed, its call is under way; and a request that has moved on
has no key. -/
theorem progress_implies_shredded (hw : Keyed w) (hn : w.deletionRequests.lookup id = none) {c : (vault d).Config}
    (hr : Reachable (keyFirst id) (initial w) c) :
    (∀ t, holds id .keyDestroyed c.log t = true → ∃ p, c.threads[t]? = some p ∧ p.isDone = false) ∧
    ∀ request, c.state.deletionRequests.lookup id = some request → hasProgressed request.status →
      shreddedSince id request.userId request.tenant c.log = true := by
  refine ⟨fun t hh => ?_, fun request hl hs => ?_⟩
  · obtain ⟨snapshot, -, hc⟩ := holds_iff.mp hh
    exact claim_running hw hr hc
  · rcases (keyFirst_lasting.run hw hn hr hl).stage with h | ⟨h, -⟩ | h
    · simp [h, hasProgressed] at hs
    · simp [h, hasProgressed] at hs
    · exact h

section Runs

theorem progress_implies_shredded_launched :
    ∃ c request, Reachable (keyFirst "request") (initial (emptyVault 0) : (vault smallDeployment).Config) c ∧
      c.state.deletionRequests.lookup "request" = some request ∧ hasProgressed request.status ∧
      shreddedSince "request" request.userId request.tenant c.log = true := by
  have h : ∃ c, Reachable (keyFirst "request") (initial (emptyVault 0) : (vault smallDeployment).Config) c ∧
      (c.state.deletionRequests.lookup "request").any (fun request => hasProgressed request.status) = true :=
    exists_reachable cascadeLaunched _ (by decide +kernel)
  obtain ⟨c, hr, h⟩ := h
  obtain ⟨request, hl, hs⟩ := (Option.any_eq_true _ _).mp h
  have hp : hasProgressed request.status := of_decide_eq_true hs
  exact ⟨c, request, hr, hl, hp, (progress_implies_shredded (keyed_emptyVault 0) rfl hr).2 request hl hp⟩

/-- A request that never touched the key is declared a partial failure, and retried. -/
def retriedUnshredded : List VaultEvent :=
  requested ++ atHubspot ++ [.start (.advanceRequest "request" .cascadePartialFailure "operation")] ++ steps 1 4
    ++ [.start (.advanceRequest "request" .cascadeInProgress "operation")] ++ steps 2 8

theorem progress_without_shred :
    ∃ c : (vault smallDeployment).Config, Reachable free (initial (emptyVault 0)) c ∧
      (c.state.deletionRequests.lookup "request").map (fun request => (request.status, request.userId, request.tenant))
        = some (.cascadeInProgress, "ada", "acme") ∧
      shreddedSince "request" "ada" "acme" c.log = false ∧
      KeyRegistry.hasActiveKeyMaterial (c.state.keyDoc "ada" "acme") = true :=
  exists_reachable retriedUnshredded _ (by decide +kernel)

end Runs

end ChameleonVault.Deletion
