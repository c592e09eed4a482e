import ChameleonVault.Deletion.Holders

/-! A side effect that fails after its claim is rolled back, by an ordinary write: when that write can
only undo its own claim, and what it overwrites otherwise. -/

namespace ChameleonVault.Deletion

open Concurrency Interleaving Discipline

variable {d : Deployment} {guard : (vault d).Guard} {w w' : World} {log : (vault d).Log} {a : (vault d).Action}
  {id : String} {request : DeletionRequest} {t : ℕ} {claimed newStatus : Status}

def lastWrite (id : String) : (vault d).Log → Option (ℕ × Status)
  | [] => none
  | .env _ :: log => lastWrite id log
  | .act a :: log =>
    match statusOf id (.act a) with
    | some newStatus => some (a.tid, newStatus)
    | none => lastWrite id log

/-- No call that has read `KEY_DESTROYED` moves the request on while the call that claimed it has
its shred before it; and while a certificate is being issued, no other call declares the cascade
complete. -/
def undisturbed (id : String) : (vault d).Guard := fun _ log e =>
  (match e with
    | .act a => (statusOf id e).isNone ||
        (!(heldByOther id .keyDestroyed log a.tid && hasRead id .keyDestroyed log a.tid)
          && (!heldByOther id .certificateIssued log a.tid || a.op.isClaim || (handlers.known a.tid log).claim.isSome))
    | .env _ => true) = true

instance : ∀ w log e, Decidable (@undisturbed d id w log e) := fun _ _ _ => inferInstanceAs (Decidable (_ = true))

/-- The key has not been destroyed, or the call that destroys it has not said so. -/
def isYoung (id : String) (request : DeletionRequest) (log : (vault d).Log) : Prop :=
  request.status = .shredRequested ∨ ∃ t, holds id .keyDestroyed log t = true

structure Exclusive (id : String) (request : DeletionRequest) (log : (vault d).Log) : Prop where
  status (t : ℕ) (current : Status) : lastWrite id log = some (t, current) → request.status = current
  held (t : ℕ) (claimed : Status) : isExclusive claimed = true → holds id claimed log t = true →
    lastWrite id log = some (t, claimed)
  read (t : ℕ) (snapshot : DeletionRequest) : isYoung id request log → (handlers.known t log).concerns id snapshot →
    snapshot.status = .shredRequested ∨ snapshot.status = .keyDestroyed

section Invariant

lemma Untouched.lastWrite (h : Untouched id log) : lastWrite id log = none := by
  have hnone : ∀ e ∈ log, Deletion.statusOf id e = none := fun e he => h.statusOf he
  clear h
  induction log with
  | nil => rfl
  | cons e log ih =>
    have hlog : Deletion.lastWrite id log = none := ih fun e' he' => hnone e' (List.mem_cons_of_mem e he')
    cases e with
    | env e => exact hlog
    | act a => simp [Deletion.lastWrite, hnone (.act a) List.mem_cons_self, hlog]

lemma isExclusive_cases (h : isExclusive claimed = true) : claimed = .keyDestroyed ∨ claimed = .certificateIssued := by
  simpa [isExclusive] using h

lemma Exclusive.unique (h : Exclusive id request log) {u : ℕ} {claimed' : Status} (hx : isExclusive claimed = true)
    (hx' : isExclusive claimed' = true) (hh : holds id claimed log t = true) (hh' : holds id claimed' log u = true) :
    t = u :=
  (Prod.mk.inj (Option.some.inj ((h.held t claimed hx hh).symm.trans (h.held u claimed' hx' hh')))).1

lemma Exclusive.stored (h : Exclusive id request log) (hx : isExclusive claimed = true)
    (hh : holds id claimed log t = true) : request.status = claimed :=
  h.status t claimed (h.held t claimed hx hh)

-- Whatever another call might write over a claim, the claims, the table or the schedule exclude.
lemma Exclusive.unwritten (h : Exclusive id request log) (ht : Touch (undisturbed id) id w log a w' request)
    (hx : isExclusive claimed = true) (hh : holds id claimed log t = true) (hne : a.tid ≠ t) :
    statusOf id (.act a) ≠ some newStatus := by
  intro hs
  have hst : request.status = claimed := h.stored hx hh
  have hother : heldByOther id claimed log a.tid = true := heldByOther_iff.mpr ⟨t, Ne.symm hne, hh⟩
  have hg := ht.allowed.guard
  simp only [Deletion.undisturbed, hs, Option.isNone_some, Bool.false_or] at hg
  have hunheld {claimed' : Status} {snapshot : DeletionRequest} (hx' : isExclusive claimed' = true)
      (hq : (handlers.known a.tid log).concerns id snapshot) (hc : (handlers.known a.tid log).claim = some claimed') :
      False :=
    hne (h.unique hx' hx (holds_of_claim hq hc) hh)
  rcases isExclusive_cases hx with rfl | rfl
  · have hunread : hasRead id .keyDestroyed log a.tid = false := by
      rw [Bool.eq_false_iff]
      intro hr
      simp [hother, hr] at hg
    have hread {snapshot : DeletionRequest} (hq : (handlers.known a.tid log).concerns id snapshot) :
        snapshot.status ≠ .keyDestroyed := by
      intro he
      rw [hasRead_iff.mpr ⟨snapshot, hq, he⟩] at hunread
      contradiction
    cases hcl : a.op.isClaim with
    | true =>
      obtain ⟨snapshot, hq, -, he, -⟩ := ht.claim (statusOf_eq.mp hs) hcl
      exact hread hq (he.trans hst)
    | false =>
      obtain ⟨snapshot, hq, hm⟩ := ht.write (statusOf_eq.mp hs) hcl
      have hy := h.read a.tid snapshot (.inr ⟨t, hh⟩) hq
      cases hm with
      | keyRollback hc => exact hunheld rfl hq hc
      | certificateRollback hc => exact hunheld rfl hq hc
      | finished _ hp => rcases hy with hy | hy <;> rw [hy] at hp <;> rcases hp with hp | hp <;> contradiction
      | shortcut _ _ hv => exact hread hq (shortcut_young hy hv)
  · have hcl : a.op.isClaim = false := ht.not_claim hst hs
    simp only [hother, hcl, Bool.and_eq_true, Bool.not_true, Bool.false_or] at hg
    obtain ⟨snapshot, hq, hm⟩ := ht.write (statusOf_eq.mp hs) hcl
    cases hm with
    | keyRollback hc => exact hunheld rfl hq hc
    | certificateRollback hc => exact hunheld rfl hq hc
    | finished hn => simp [hn] at hg
    | shortcut hn => simp [hn] at hg

lemma Exclusive.kept (h : Exclusive id request log) (ht : Touch (undisturbed id) id w log a w' request)
    (hx : isExclusive claimed = true) (hh : holds id claimed log t = true)
    (hrel : a.tid = t → a.op.releases a.reply = false) : statusOf id (.act a) ≠ some newStatus := by
  intro hs
  by_cases hself : a.tid = t
  · subst hself
    have hr := hrel rfl
    rw [ht.releases_of_holds hh hs] at hr
    contradiction
  · exact h.unwritten ht hx hh hself hs

lemma Touch.young_before (ht : Touch guard id w log a w' request)
    (hy : isYoung id (Change.after w.clock (changeOf id (.act a)) request) (.act a :: log)) :
    isYoung id request log := by
  rcases hy with hst | ⟨t, hh⟩
  · rw [status_after] at hst
    cases hs : statusOf id (.act a) with
    | none =>
      rw [hs] at hst
      exact .inl hst
    | some newStatus =>
      rw [hs] at hst
      obtain rfl : newStatus = .shredRequested := hst
      cases hcl : a.op.isClaim with
      | true =>
        obtain ⟨snapshot, -, -, -, hv⟩ := ht.claim (statusOf_eq.mp hs) hcl
        rw [not_isValidTransition_shredRequested] at hv
        contradiction
      | false =>
        obtain ⟨snapshot, hq, hm⟩ := ht.write (statusOf_eq.mp hs) hcl
        cases hm with
        | keyRollback hc => exact .inr ⟨a.tid, holds_of_claim hq hc⟩
  · rcases holds_after ht.allowed hh with ⟨hb, -⟩ | ⟨-, hc, hcl, -⟩
    · exact .inr ⟨t, hb⟩
    · obtain ⟨snapshot, -, -, -, hv⟩ := ht.claim hc hcl
      exact .inl (eq_of_isValidTransition_keyDestroyed hv)

lemma Exclusive.act (h : Exclusive id request log) (ht : Touch (Deletion.undisturbed id) id w log a w' request) :
    Exclusive id (Change.after w.clock (changeOf id (.act a)) request) (.act a :: log) where
  status t current hl := by
    rw [status_after]
    simp only [lastWrite] at hl
    cases hs : statusOf id (.act a) with
    | none =>
      rw [hs] at hl
      exact h.status t current hl
    | some newStatus =>
      rw [hs] at hl
      exact (Prod.mk.inj (Option.some.inj hl)).2
  held t claimed hx hh := by
    simp only [lastWrite]
    rcases holds_after ht.allowed hh with ⟨hb, hrel⟩ | ⟨rfl, hc, -⟩
    · cases hs : statusOf id (.act a) with
      | none => exact h.held t claimed hx hb
      | some newStatus => exact absurd hs (h.kept ht hx hb hrel)
    · rw [statusOf_eq.mpr hc]
  read t snapshot hy hq := by
    have hy := ht.young_before hy
    rcases request_after ht.allowed hq.1 with hr | ⟨-, hl⟩
    · exact h.read t snapshot hy ⟨hr, hq.2⟩
    · rw [hq.2, ht.stored] at hl
      obtain rfl := Option.some.inj hl
      rcases hy with hy | ⟨u, hh⟩
      · exact .inl hy
      · exact .inr (h.stored rfl hh)

lemma undisturbed_lasting : Lasting (@undisturbed d id) id (Exclusive id) where
  new _ _ _ _ h := by
    refine ⟨fun t current hl => ?_, fun t claimed _ hh => ?_, fun t snapshot _ hq => ?_⟩
    · rw [h.lastWrite] at hl
      contradiction
    · rw [h.holds] at hh
      contradiction
    · exact absurd hq.2 (h.unread t snapshot hq.1)
  act h ht := h.act ht
  env h := ⟨h.status, h.held, h.read⟩

end Invariant

/-- The call that holds a claim is not done with it: its side effect goes through, or it puts back
the status that it claimed from, over nothing but its own claim. -/
structure Undoes (id : String) (claimed : Status) (t : ℕ) (c : (vault d).Config) : Prop where
  running : ∃ p, c.threads[t]? = some p ∧ p.isDone = false
  own : lastWrite id c.log = some (t, claimed)
  stored : (c.state.deletionRequests.lookup id).map DeletionRequest.status = some claimed
  release {a : (vault d).Action} {c' : (vault d).Config} : Performs free c a c' → a.tid = t →
    holds id claimed c'.log t = false →
      a.op.achieves id claimed a.reply = true ∨ ∃ newStatus, a.op.overwrites = some (id, newStatus)
  restore {a : (vault d).Action} {c' : (vault d).Config} {newStatus : Status} : Performs free c a c' → a.tid = t →
    a.op.overwrites = some (id, newStatus) →
      (∃ snapshot, (handlers.known t c.log).concerns id snapshot ∧ snapshot.status = newStatus) ∧
      isValidTransition newStatus claimed = true ∧
      (a.op.tookEffect a.choice a.reply = true →
        (c'.state.deletionRequests.lookup id).map DeletionRequest.status = some newStatus)

section Runs

def keyClaimed : List VaultEvent :=
  requested ++ [.start (.advanceRequest "request" .keyDestroyed "operation")] ++ steps 1 2

/-- While the shred is under way, another call launches the cascade; then the shred fails. -/
def advancedDuringShred : List VaultEvent :=
  keyClaimed ++ atHubspot ++ [.start (.advanceRequest "request" .cascadePending "operation")] ++ steps 2 8 ++ [.act 1 .failed]

end Runs

end ChameleonVault.Deletion
