import ChameleonVault.Deletion.Recording

/-! No certificate over a recorded failure: when the branch to `CASCADE_COMPLETE` agrees with the
wipes that the certificate counts. -/

namespace ChameleonVault.Deletion

open Concurrency Interleaving Discipline

variable {d : Deployment} {w w' : World} {log : (vault d).Log} {a : (vault d).Action} {id : String}
  {request : DeletionRequest}

def hasFailure (request : DeletionRequest) : Bool :=
  request.janitorWipes.any fun wipe => wipe.status = .failed

/-- A failure at a destination whose outcome another call than this one recorded last. -/
def failureOfOther (id : String) (request : DeletionRequest) (log : (vault d).Log) (t : ℕ) : Bool :=
  request.janitorWipes.any fun wipe => wipe.status = .failed && !recordedBy id request log t wipe.destination

/-- No call without a claim declares the cascade complete over a failure that another call recorded, and
no failure is recorded while the cascade counts as complete or a certificate is being issued. -/
def failuresHeeded (id : String) : (vault d).Guard := fun w log e =>
  (match e, changeOf id e, w.deletionRequests.lookup id with
    | .act a, some (.status .cascadeComplete), some request =>
      (handlers.known a.tid log).claim.isSome || !failureOfOther id request log a.tid
    | _, some (.wipe _ .failed _), some request => !certifying id request log
    | _, _, _ => true) = true

instance : ∀ w log e, Decidable (@failuresHeeded d id w log e) := fun _ _ _ => inferInstanceAs (Decidable (_ = true))

structure Unfailed (id : String) (request : DeletionRequest) (log : (vault d).Log) : Prop where
  recorders : Recorders id request log
  clean : certifying id request log = true → hasFailure request = false
  drafted (t : ℕ) (evidence : DeletionRequest) : draft id log t = some evidence →
    ∀ wipe ∈ evidence.janitorWipes, wipe.status = .succeeded

lemma not_hasFailure_iff : hasFailure request = false ↔ ∀ wipe ∈ request.janitorWipes, wipe.status ≠ .failed := by
  simp [hasFailure]

lemma Unfailed.succeeded (h : Unfailed id request log) (hc : certifying id request log = true) :
    ∀ wipe ∈ request.janitorWipes, wipe.status = .succeeded := by
  intro wipe hw
  have hrecorded := (h.recorders.stored wipe.destination wipe (h.recorders.distinct.wipe_eq hw)).1
  exact hrecorded.resolve_right (not_hasFailure_iff.mp (h.clean hc) wipe hw)

lemma hasFailure_writeWipe {wipe : JanitorWipe} (h : hasFailure request = false) (hs : wipe.status = .succeeded) :
    hasFailure (request.writeWipe wipe) = false := by
  rw [not_hasFailure_iff] at h ⊢
  intro v hv
  rcases mem_recordWipe hv with rfl | hv
  · simp [hs]
  · exact h v hv

-- What the call that declares the cascade complete recorded itself are successes.
lemma Unfailed.completed (h : Unfailed id request log)
    (ht : Touch (within recording (failuresHeeded id)) id w log a w' request)
    (hs : statusOf id (.act a) = some .cascadeComplete) : hasFailure request = false := by
  have hg := (within_of_act ht.allowed.guard).1
  have hc : changeOf id (.act a) = some (.status .cascadeComplete) := statusOf_eq.mp hs
  simp only [failuresHeeded, ht.stored, hc, Bool.or_eq_true, Bool.not_eq_true'] at hg
  rcases hg with hclaim | hother
  · exact h.clean (certifying_of_holds (ht.holds_of_complete hs hclaim))
  · rw [not_hasFailure_iff]
    intro wipe hw hf
    have hown : recordedBy id request log a.tid wipe.destination = true := by
      by_contra hn
      rw [failureOfOther, List.any_eq_false] at hother
      exact hother wipe hw (by simp [hf, hn])
    obtain ⟨wipe', hw', hst⟩ := h.recorders.succeeded (clean_of_complete ht.allowed.guard hs) hown
    obtain rfl := Option.some.inj ((h.recorders.distinct.wipe_eq hw).symm.trans hw')
    rw [hf] at hst
    contradiction

lemma Unfailed.clean_after (h : Unfailed id request log)
    (ht : Touch (within recording (failuresHeeded id)) id w log a w' request)
    (hcert : certifying id (Change.after w.clock (changeOf id (.act a)) request) (.act a :: log) = true) :
    hasFailure (Change.after w.clock (changeOf id (.act a)) request) = false := by
  have hg := (within_of_act ht.allowed.guard).1
  rcases ht.certifying_after hcert with hb | hc
  · have hclean : hasFailure request = false := h.clean hb
    cases hc : changeOf id (.act a) with
    | none => exact hclean
    | some change =>
      cases change with
      | status newStatus => exact hclean
      | attach fields => exact hclean
      | wipe destination status details =>
        rcases ht.wipe hc with rfl | rfl
        · exact hasFailure_writeWipe hclean rfl
        · simp [failuresHeeded, ht.stored, hc, hb] at hg
  · have hclean : hasFailure request = false := h.completed ht (statusOf_eq.mpr hc)
    rw [hc]
    exact hclean

lemma Unfailed.act (h : Unfailed id request log) (ht : Touch (within recording (failuresHeeded id)) id w log a w' request) :
    Unfailed id (Change.after w.clock (changeOf id (.act a)) request) (.act a :: log) where
  recorders := h.recorders.act ht
  clean := h.clean_after ht
  drafted t evidence hd := by
    rcases draft_after ht hd with hd | ⟨-, -, rfl, hh⟩
    · exact h.drafted t evidence hd
    · exact h.succeeded (certifying_of_holds hh)

lemma failuresHeeded_lasting : Lasting (within recording (@failuresHeeded d id)) id (Unfailed id) where
  new _ _ _ _ h := by
    refine ⟨.new, fun _ => rfl, fun t evidence hd => ?_⟩
    simp [h.draft] at hd
  act h ht := h.act ht
  env h := ⟨h.recorders.env, h.clean, h.drafted⟩

lemma lineageCoverage_of_succeeded {wipes : List JanitorWipe} (h : ∀ wipe ∈ wipes, wipe.status = .succeeded)
    (known : List String) :
    (lineageCoverage wipes known).destinationsChecked = (lineageCoverage wipes known).destinationsSucceeded := by
  have hf : (wipes.filter fun wipe => wipe.status = .succeeded) = wipes :=
    List.filter_eq_self.mpr fun wipe hw => decide_eq_true (h wipe hw)
  simp [lineageCoverage, hf]

section Runs

/-- The statement fails, the table is withdrawn from the registry, and the retry finds nothing to do. -/
def withdrawn : List VaultEvent :=
  redactionLaunched ++ [.act 3 .failed] ++ steps 3 5
    ++ [.env (.serveEntries []), .start (.advanceRequest "request" .cascadeInProgress "operation")] ++ steps 4 6
    ++ (issued 4).take 8

end Runs

end ChameleonVault.Deletion
