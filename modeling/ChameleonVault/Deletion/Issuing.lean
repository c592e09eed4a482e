import ChameleonVault.Deletion.Holders

/-! One certificate for one request: the claim makes issuing exclusive, the unclaimed writes of
the status do not respect it. -/

namespace ChameleonVault.Deletion

open Concurrency Interleaving Discipline

variable {d : Deployment} {guard : (vault d).Guard} {w w' : World} {log : (vault d).Log} {a : (vault d).Action}
  {id : String} {request : DeletionRequest}

def certificates (id : String) (log : (vault d).Log) : ℕ := log.countP (uploads id)

/-- No unclaimed write of the status lands while another call is issuing, or once a certificate is
stored, and no upload that went through is reported as failed. -/
def settled (id : String) : (vault d).Guard := fun _ log e =>
  (match e with
    | .act a => ((statusOf id e).isNone || a.op.isClaim ||
        (!heldByOther id .certificateIssued log a.tid && certificates id log = 0))
        && (!uploads id e || isConfirmed e)
    | .env _ => true) = true

instance : ∀ w log e, Decidable (@settled d id w log e) := fun _ _ _ => inferInstanceAs (Decidable (_ = true))

structure AtMostOne (id : String) (request : DeletionRequest) (log : (vault d).Log) : Prop where
  held (t : ℕ) : holds id .certificateIssued log t = true →
    request.status = .certificateIssued ∧ certificates id log = 0
  unique (t u : ℕ) : holds id .certificateIssued log t = true → holds id .certificateIssued log u = true → t = u
  stored : 0 < certificates id log → request.status = .certificateIssued
  most : certificates id log ≤ 1

lemma certificates_cons (e : (vault d).Entry) (log : (vault d).Log) :
    certificates id (e :: log) = certificates id log + if uploads id e = true then 1 else 0 := by
  simp [certificates, List.countP_cons]

lemma Untouched.certificates (h : Untouched id log) : certificates id log = 0 := by
  refine List.countP_eq_zero.mpr fun e he hu => ?_
  rw [h.uploads he] at hu
  contradiction

lemma statusOf_uploads (h : uploads id (.act a) = true) : statusOf id (.act a) = none := by
  obtain ⟨userId, chained, tenantId, tsaTimestamp, rekorEntry, hop⟩ := uploads_op h
  obtain ⟨t, op, choice, reply⟩ := a
  simp only at hop
  subst hop
  rfl

lemma holds_of_uploads (h : Touch guard id w log a w' request) (hu : uploads id (.act a) = true) :
    holds id .certificateIssued log a.tid = true := by
  obtain ⟨userId, chained, tenantId, tsaTimestamp, rekorEntry, hop⟩ := uploads_op hu
  have hallowed := h.allowed.allowed
  rw [hop] at hallowed
  obtain ⟨snapshot, hq, hc, -⟩ := hallowed
  exact holds_iff.mpr ⟨snapshot, hq, hc⟩

lemma releases_of_uploads (h : Touch guard id w log a w' request) (hu : uploads id (.act a) = true)
    (hc : isConfirmed (.act a) = true) : a.op.releases a.reply = true := by
  obtain ⟨userId, chained, tenantId, tsaTimestamp, rekorEntry, hop⟩ := uploads_op hu
  have hexec := h.allowed.exec
  obtain ⟨t, op, choice, reply⟩ := a
  simp only at hop
  subst hop
  cases reply with
  | ok path => rfl
  | error e =>
    cases choice with
    | done answer => simp [uploads, Op.tookEffect] at hu
    | failed => simp [uploads, Op.tookEffect] at hu
    | unconfirmed answer => contradiction

lemma AtMostOne.upload (h : AtMostOne id request log) (ht : Touch (settled id) id w log a w' request)
    (hu : uploads id (.act a) = true) :
    AtMostOne id (Change.after w.clock (changeOf id (.act a)) request) (.act a :: log) := by
  obtain ⟨hst, hzero⟩ := h.held a.tid (holds_of_uploads ht hu)
  have hrel : a.op.releases a.reply = true := by
    have hg := ht.allowed.guard
    simp only [settled, statusOf_uploads hu, hu, Option.isNone_none, Bool.true_or, Bool.true_and, Bool.not_true,
      Bool.false_or] at hg
    exact releases_of_uploads ht hu hg
  have hnone (t : ℕ) : holds id .certificateIssued (.act a :: log) t = false := by
    rw [Bool.eq_false_iff]
    intro hh
    rcases holds_after ht.allowed hh with ⟨hb, hk⟩ | ⟨-, hc, -⟩
    · have he : a.tid = t := h.unique a.tid t (holds_of_uploads ht hu) hb
      rw [hk he] at hrel
      contradiction
    · rw [← statusOf_eq, statusOf_uploads hu] at hc
      contradiction
  refine ⟨fun t hh => ?_, fun t u hh => ?_, fun _ => ?_, ?_⟩
  · rw [hnone] at hh
    contradiction
  · rw [hnone] at hh
    contradiction
  · rw [status_after, statusOf_uploads hu]
    exact hst
  · simp [certificates_cons, hu, hzero]

lemma AtMostOne.quiet (h : AtMostOne id request log) (ht : Touch (settled id) id w log a w' request)
    (hs : statusOf id (.act a) = none) (hu : uploads id (.act a) = false) :
    AtMostOne id (Change.after w.clock (changeOf id (.act a)) request) (.act a :: log) := by
  have before {t : ℕ} (hh : holds id .certificateIssued (.act a :: log) t = true) :
      holds id .certificateIssued log t = true := by
    rcases holds_after ht.allowed hh with ⟨hb, -⟩ | ⟨-, hc, -⟩
    · exact hb
    · rw [← statusOf_eq, hs] at hc
      contradiction
  refine ⟨fun t hh => ?_, fun t u hh hh' => h.unique t u (before hh) (before hh'), fun hp => ?_, ?_⟩
  · simpa [status_after, hs, certificates_cons, hu] using h.held t (before hh)
  · simpa [status_after, hs] using h.stored (by simpa [certificates_cons, hu] using hp)
  · simpa [certificates_cons, hu] using h.most

lemma AtMostOne.unheld (h : AtMostOne id request log) (ht : Touch (settled id) id w log a w' request)
    {newStatus : Status} (hs : statusOf id (.act a) = some newStatus) {t : ℕ}
    (hb : holds id .certificateIssued log t = true) (hk : a.tid = t → a.op.releases a.reply = false) : False := by
  obtain ⟨hst, -⟩ := h.held t hb
  have hcl : a.op.isClaim = false := ht.not_claim hst hs
  by_cases he : a.tid = t
  · subst he
    have hrel := hk rfl
    rw [ht.releases_of_holds hb hs] at hrel
    contradiction
  · have hother : heldByOther id .certificateIssued log a.tid = true :=
      heldByOther_iff.mpr ⟨t, fun h => he h.symm, hb⟩
    have hg := ht.allowed.guard
    simp [settled, hs, hcl, hother] at hg

lemma AtMostOne.none_stored (h : AtMostOne id request log) (ht : Touch (settled id) id w log a w' request)
    {newStatus : Status} (hs : statusOf id (.act a) = some newStatus) : certificates id log = 0 := by
  by_contra hne
  have hst : request.status = .certificateIssued := h.stored (by omega)
  have hcl : a.op.isClaim = false := ht.not_claim hst hs
  have hg := ht.allowed.guard
  simp [settled, hs, hcl, hne] at hg

lemma AtMostOne.write (h : AtMostOne id request log) (ht : Touch (settled id) id w log a w' request)
    {newStatus : Status} (hs : statusOf id (.act a) = some newStatus) (hu : uploads id (.act a) = false) :
    AtMostOne id (Change.after w.clock (changeOf id (.act a)) request) (.act a :: log) := by
  have hzero : certificates id (.act a :: log) = 0 := by simp [certificates_cons, hu, h.none_stored ht hs]
  have claimed {t : ℕ} (hh : holds id .certificateIssued (.act a :: log) t = true) :
      a.tid = t ∧ newStatus = .certificateIssued := by
    rcases holds_after ht.allowed hh with ⟨hb, hk⟩ | ⟨he, hc, -⟩
    · exact (h.unheld ht hs hb hk).elim
    · rw [← statusOf_eq, hs] at hc
      exact ⟨he, Option.some.inj hc⟩
  refine ⟨fun t hh => ⟨?_, hzero⟩, fun t u hh hh' => ?_, fun hp => ?_, by omega⟩
  · rw [status_after, hs, (claimed hh).2]
    rfl
  · rw [← (claimed hh).1, (claimed hh').1]
  · omega

lemma settled_lasting : Lasting (@settled d id) id (AtMostOne id) where
  new {log} _ _ _ _ h := by
    have hzero : certificates id log = 0 := h.certificates
    refine ⟨fun t hh => ?_, fun t u hh => ?_, fun hp => ?_, by omega⟩
    · simp [h.holds] at hh
    · simp [h.holds] at hh
    · omega
  act {_ _ _ a _} h ht := by
    cases hu : uploads id (.act a) with
    | true => exact h.upload ht hu
    | false =>
      cases hs : statusOf id (.act a) with
      | none => exact h.quiet ht hs hu
      | some newStatus => exact h.write ht hs hu
  env h := ⟨h.held, h.unique, h.stored, h.most⟩

theorem one_certificate (hw : Keyed w) (hn : w.deletionRequests.lookup id = none) {c c' : (vault d).Config}
    (hr : Reachable (settled id) (initial w) c) (hr' : Reachable (settled id) c c') :
    certificates id c'.log ≤ 1 ∧ (0 < certificates id c.log →
      (c'.state.deletionRequests.lookup id).map DeletionRequest.status = some .certificateIssued) := by
  have hi := settled_lasting.along hw hn (hr.trans hr')
  cases hl : c'.state.deletionRequests.lookup id with
  | none =>
    have hzero : certificates id c'.log = 0 := (hi.sound.untouched hl).certificates
    have hle : certificates id c.log ≤ certificates id c'.log := hr'.log_suffix.sublist.countP_le
    exact ⟨by omega, fun hp => by omega⟩
  | some request =>
    have hmost : AtMostOne id request c'.log := hi.inv request hl
    have hle : certificates id c.log ≤ certificates id c'.log := hr'.log_suffix.sublist.countP_le
    refine ⟨hmost.most, fun hp => ?_⟩
    rw [Option.map_some, hmost.stored (by omega)]

section Runs

def shortcutFound (t : ℕ) : List VaultEvent :=
  [.start (.advanceRequest "request" .cascadePending "operation")] ++ steps t 3

def certified : List VaultEvent := keyShredded ++ shortcutFound 2 ++ steps 2 3 ++ issued 2

theorem one_certificate_certified :
    ∃ c : (vault smallDeployment).Config, Reachable (settled "request") (initial (emptyVault 0)) c ∧
      0 < certificates "request" c.log ∧ certificates "request" c.log ≤ 1 ∧
      (c.state.deletionRequests.lookup "request").map DeletionRequest.status = some .certificateIssued := by
  have h : ∃ c : (vault smallDeployment).Config, Reachable (settled "request") (initial (emptyVault 0)) c ∧
      0 < certificates "request" c.log := exists_reachable certified _ (by decide +kernel)
  obtain ⟨c, hr, hp⟩ := h
  have hc := one_certificate (keyed_emptyVault 0) rfl hr .refl
  exact ⟨c, hr, hp, hc.1, hc.2 hp⟩

/-- Two calls find the same empty plan, and take the shortcut one after the other. -/
def certifiedTwice : List VaultEvent :=
  keyShredded ++ shortcutFound 2 ++ shortcutFound 3 ++ steps 2 3 ++ issued 2

theorem two_certificates :
    ∃ c c' : (vault smallDeployment).Config, Reachable free (initial (emptyVault 0)) c ∧ Reachable free c c' ∧
      certificates "request" c.log = 1 ∧
      (c.state.deletionRequests.lookup "request").map DeletionRequest.status = some .certificateIssued ∧
      certificates "request" c'.log = 2 :=
  exists_reachable_later certifiedTwice (steps 3 3 ++ issued 3) _ (by decide +kernel)

end Runs

end ChameleonVault.Deletion
