import ChameleonVault.CertificateChain.Transactions
import ChameleonVault.Concurrency.Invariants
import ChameleonVault.Deletion.Runs
import ChameleonVault.HashChain.Links

/-! The chains over any interleaving of appends: each document describes the list of the certificates
that were committed there, and that list is linked. A tenant's chain is whole exactly while nobody else's
certificates are committed to the document that its id names. -/

namespace ChameleonVault.CertificateChain

open Collections Concurrency Interleaving Discipline Call Deletion HashChain

variable {d : Deployment} {w w' : World} {log : (ledger d).Log} {a : (ledger d).Action} {guard : (ledger d).Guard}
  {document : DocumentPath} {tenantId hash : String} {certificate certificate' : Certificate}
  {entry : CertificateChainEntry} {t : ℕ}

section Appends

/-- The certificate that a call has had signed last. -/
def appends (d : Deployment) : Discipline Op (fun op => Except String op.Res) (Option Certificate) where
  start := none
  allowed q
    | .commit document tenantId _ current certificate => q = some certificate ∧
        certificate.claims.tenantId = tenantId ∧ d.document tenantId = some document ∧
        certificate.previousCertificateHash = previousHash current ∧ certificate.chainSequence = sequence current
    | _ => True
  next q
    | .signClaims claims previousHash sequence, .ok (keyVersion, signature) =>
      some ⟨claims, previousHash, sequence, keyVersion, signature⟩
    | _, _ => q
  possible _ _ := True

lemma attempt_keeps {claims : Claims} (hc : claims.tenantId = tenantId) (hdoc : d.document tenantId = some document)
    (id : String) (left : ℕ) (q : Option Certificate) :
    (appends d).Keeps q (attempt d document tenantId id claims left) (fun _ _ => True) (fun _ _ => True) := by
  induction left generalizing q with
  | zero => exact Keeps.throw trivial
  | succ left ih =>
    apply Keeps.bind
    refine Keeps.perform trivial (fun current _ => ?_) (fun _ _ => trivial)
    apply Keeps.bind
    refine Keeps.perform trivial (fun signed _ => ?_) (fun _ _ => trivial)
    obtain ⟨keyVersion, signature⟩ := signed
    apply Keeps.bind
    refine Keeps.perform ⟨rfl, hc, hdoc, rfl, rfl⟩ (fun committed _ => ?_) (fun _ _ => trivial)
    cases committed with
    | true => exact Keeps.pure trivial
    | false => exact ih _

lemma appendToChain_keeps {claims : Claims} (hc : claims.tenantId = tenantId) (id : String) :
    (appends d).Keeps none (appendToChain d tenantId id claims) (fun _ _ => True) (fun _ _ => True) := by
  rw [appendToChain]
  cases hdoc : d.document tenantId with
  | none => exact Keeps.throw trivial
  | some document => exact attempt_keeps hc hdoc id maxAttempts none

lemma appends_governs (d : Deployment) : Governs (S := ledger d) (appends d) (fun _ => True) where
  body j := by
    cases j with
    | append tenantId id claims hc =>
      exact Follows.bind (Follows.mono (appendToChain_keeps hc id) (fun _ _ _ => trivial))
    | recordTsaTimestamp hash info => exact ⟨trivial, fun _ _ => trivial⟩
    | recordRekorEntry hash info => exact ⟨trivial, fun _ _ => trivial⟩
  exec _ _ := ⟨trivial, trivial⟩
  env _ _ := trivial

end Appends

section History

/-- Every certificate that the signer has returned, also those of refused attempts. -/
def signed : (ledger d).Log → List Certificate
  | [] => []
  | .act ⟨_, .signClaims claims previousHash sequence, _, .ok (keyVersion, signature)⟩ :: log =>
    ⟨claims, previousHash, sequence, keyVersion, signature⟩ :: signed log
  | _ :: log => signed log

def wentThrough : Outcome → Except String Bool → Bool
  | .unconfirmed _, _ => true
  | .done, .ok true => true
  | _, _ => false

def appended (document : DocumentPath) : (ledger d).Entry → Option Certificate
  | .act ⟨_, .commit document' _ _ _ certificate, outcome, reply⟩ =>
    if document' = document ∧ wentThrough outcome reply = true then some certificate else none
  | _ => none

/-- The certificates that were committed to a document, newest first. -/
def history (document : DocumentPath) (log : (ledger d).Log) : List Certificate := log.filterMap (appended document)

def certificateLinks (d : Deployment) : Links Certificate String where
  hash := d.sha256
  prev := (·.previousCertificateHash)
  seq := (·.chainSequence)

def InjectiveOn (d : Deployment) (certificates : List Certificate) : Prop :=
  ∀ certificate ∈ certificates, ∀ certificate' ∈ certificates,
    d.sha256 certificate = d.sha256 certificate' → certificate = certificate'

instance (certificates : List Certificate) : Decidable (InjectiveOn d certificates) :=
  inferInstanceAs (Decidable (∀ _ ∈ _, ∀ _ ∈ _, _))

def core (entry : CertificateChainEntry) : String × ℕ × Option String × String :=
  (entry.tenantId, entry.sequence, entry.previousHash, entry.deletionRequestId)

def SameEntries (w w' : World) : Prop :=
  ∀ hash, (w'.chainEntries.lookup hash).map core = (w.chainEntries.lookup hash).map core

/-- The head document describes the newest certificate, if there is one. -/
def DescribesHead (d : Deployment) (document : DocumentPath) (w : World) : List Certificate → Prop
  | [] => w.certificateChain.lookup document = none
  | certificate :: _ => ∃ state entry, w.certificateChain.lookup document = some state ∧
      state.sequence = certificate.chainSequence ∧ state.lastHash = some (d.sha256 certificate) ∧
      w.chainEntries.lookup (d.sha256 certificate) = some entry ∧
      state.lastDeletionRequestId = some entry.deletionRequestId

structure Faithful (w : World) (log : (ledger d).Log) : Prop where
  linked (document : DocumentPath) : (certificateLinks d).Linked (history document log)
  head (document : DocumentPath) : DescribesHead d document w (history document log)
  stored (document : DocumentPath) (certificate : Certificate) : certificate ∈ history document log →
    ∃ entry, w.chainEntries.lookup (d.sha256 certificate) = some entry ∧ entry.tenantId = certificate.claims.tenantId
  entry (hash : String) (entry : CertificateChainEntry) : w.chainEntries.lookup hash = some entry →
    ∃ document, ∃ certificate ∈ history document log, d.sha256 certificate = hash ∧
      certificate.claims.tenantId = entry.tenantId ∧ entry.sequence = certificate.chainSequence ∧
      entry.previousHash = certificate.previousCertificateHash
  genuine (document : DocumentPath) (certificate : Certificate) : certificate ∈ history document log →
    certificate ∈ signed log ∧ d.document certificate.claims.tenantId = some document

lemma signed_subset (e : (ledger d).Entry) : signed log ⊆ signed (e :: log) := by
  intro certificate h
  rcases e with ⟨t, op, outcome, reply⟩ | ms
  · cases op
    case signClaims claims previousHash sequence =>
      rcases reply with e | ⟨keyVersion, signature⟩
      · exact h
      · exact List.mem_cons_of_mem _ h
    all_goals exact h
  · exact h

lemma InjectiveOn.earlier {e : (ledger d).Entry} (h : InjectiveOn d (signed (e :: log))) : InjectiveOn d (signed log) :=
  fun certificate hc certificate' hc' => h certificate (signed_subset e hc) certificate' (signed_subset e hc')

lemma core_eq {entry' : CertificateChainEntry} (h : core entry' = core entry) :
    entry'.tenantId = entry.tenantId ∧ entry'.sequence = entry.sequence ∧
      entry'.previousHash = entry.previousHash ∧ entry'.deletionRequestId = entry.deletionRequestId := by
  simpa [core] using h

lemma SameEntries.forward (h : SameEntries w w') (hl : w.chainEntries.lookup hash = some entry) :
    ∃ entry', w'.chainEntries.lookup hash = some entry' ∧ core entry' = core entry := by
  have hh := h hash
  rw [hl] at hh
  exact Option.map_eq_some_iff.mp hh

lemma SameEntries.symm (h : SameEntries w w') : SameEntries w' w := fun hash => (h hash).symm

lemma DescribesHead.frame {certificates : List Certificate} (h : DescribesHead d document w certificates)
    (hchain : w'.certificateChain.lookup document = w.certificateChain.lookup document)
    (hentries : ∀ certificate ∈ certificates, ∀ entry, w.chainEntries.lookup (d.sha256 certificate) = some entry →
      ∃ entry', w'.chainEntries.lookup (d.sha256 certificate) = some entry' ∧
        entry'.deletionRequestId = entry.deletionRequestId) : DescribesHead d document w' certificates := by
  cases certificates with
  | nil => exact hchain.trans h
  | cons certificate cs =>
    obtain ⟨state, entry, hs, hseq, hlast, hl, hid⟩ := h
    obtain ⟨entry', hl', hid'⟩ := hentries certificate List.mem_cons_self entry hl
    exact ⟨state, entry', hchain.trans hs, hseq, hlast, hl', hid.trans (congrArg some hid'.symm)⟩

lemma Faithful.frame (h : Faithful w log) {e : (ledger d).Entry} (he : ∀ document, appended document e = none)
    (hchain : w'.certificateChain = w.certificateChain) (hentries : SameEntries w w') : Faithful w' (e :: log) := by
  have hhistory (document : DocumentPath) : history document (e :: log) = history document log :=
    List.filterMap_cons_none (he document)
  refine ⟨fun document => ?_, fun document => ?_, fun document certificate hc => ?_, fun hash entry hl => ?_,
    fun document certificate hc => ?_⟩
  · rw [hhistory]
    exact h.linked document
  · rw [hhistory]
    refine (h.head document).frame (congrArg _ hchain) fun certificate _ entry hl => ?_
    obtain ⟨entry', hl', hcore⟩ := hentries.forward hl
    exact ⟨entry', hl', (core_eq hcore).2.2.2⟩
  · rw [hhistory] at hc
    obtain ⟨entry, hl, ht⟩ := h.stored document certificate hc
    obtain ⟨entry', hl', hcore⟩ := hentries.forward hl
    exact ⟨entry', hl', (core_eq hcore).1.trans ht⟩
  · obtain ⟨entry', hl', hcore⟩ := hentries.symm.forward hl
    obtain ⟨document, certificate, hc, hh, hct, hseq, hprev⟩ := h.entry hash entry' hl'
    obtain ⟨ht, hs, hp, -⟩ := core_eq hcore
    exact ⟨document, certificate, by rw [hhistory]; exact hc, hh, hct.trans ht, hs ▸ hseq, hp ▸ hprev⟩
  · rw [hhistory] at hc
    obtain ⟨hs, ht⟩ := h.genuine document certificate hc
    exact ⟨signed_subset e hs, ht⟩

end History

section Commits

lemma Faithful.head_links (h : Faithful w log) (document : DocumentPath) :
    previousHash (w.certificateChain.lookup document) = (history document log).head?.map d.sha256 ∧
      sequence (w.certificateChain.lookup document) = (history document log).length + 1 := by
  have hhead := h.head document
  have hlinked := h.linked document
  cases hh : history document log with
  | nil =>
    rw [hh] at hhead
    simp only [DescribesHead] at hhead
    simp [hhead, previousHash, sequence]
  | cons certificate cs =>
    rw [hh] at hhead hlinked
    obtain ⟨state, entry, hs, hseq, hlast, -, -⟩ := hhead
    have hlen : certificate.chainSequence = cs.length + 1 := hlinked.2.1
    simp [hs, previousHash, sequence, hlast, hseq, hlen]

lemma Faithful.fresh (h : Faithful w log) (hinj : InjectiveOn d (signed log)) (hs : certificate ∈ signed log)
    (ht : d.document certificate.claims.tenantId = some document)
    (hseq : certificate.chainSequence = (history document log).length + 1) {document' : DocumentPath}
    (hc : certificate' ∈ history document' log) : d.sha256 certificate' ≠ d.sha256 certificate := by
  intro he
  obtain ⟨hs', ht'⟩ := h.genuine document' certificate' hc
  obtain rfl := hinj certificate' hs' certificate hs he
  obtain rfl : document' = document := Option.some.inj (ht'.symm.trans ht)
  have hle : certificate'.chainSequence ≤ (history document' log).length := (h.linked document').seq_le hc
  omega

lemma history_self {tid : ℕ} {id : String} {current : Option CertificateChainState} {outcome : Outcome}
    {reply : Except String Bool} (hw : wentThrough outcome reply = true) :
    history document
        (.act ⟨tid, .commit document tenantId id current certificate, outcome, reply⟩ :: log : (ledger d).Log) =
      certificate :: history document log := by
  simp [history, appended, hw]

lemma history_ne {tid : ℕ} {id : String} {document' : DocumentPath} {current : Option CertificateChainState}
    {outcome : Outcome} {reply : Except String Bool} (hne : document ≠ document') :
    history document'
        (.act ⟨tid, .commit document tenantId id current certificate, outcome, reply⟩ :: log : (ledger d).Log) =
      history document' log := by
  simp [history, appended, hne]

lemma mem_history_commit {tid : ℕ} {id : String} {document' : DocumentPath} {current : Option CertificateChainState}
    {outcome : Outcome} {reply : Except String Bool} (hw : wentThrough outcome reply = true) :
    certificate' ∈ history document'
        (.act ⟨tid, .commit document tenantId id current certificate, outcome, reply⟩ :: log : (ledger d).Log) ↔
      (certificate' = certificate ∧ document' = document) ∨ certificate' ∈ history document' log := by
  by_cases he : document = document'
  · subst he
    rw [history_self hw, List.mem_cons]
    simp
  · rw [history_ne he]
    simp [Ne.symm he]

lemma Faithful.commit (h : Faithful w log) (hinj : InjectiveOn d (signed log)) (hs : certificate ∈ signed log)
    (ht : certificate.claims.tenantId = tenantId) (hdoc : d.document tenantId = some document)
    (hprev : certificate.previousCertificateHash = previousHash (w.certificateChain.lookup document))
    (hseq : certificate.chainSequence = sequence (w.certificateChain.lookup document)) {tid : ℕ} {id : String}
    {current : Option CertificateChainState} {outcome : Outcome} {reply : Except String Bool}
    (hw : wentThrough outcome reply = true) :
    Faithful (commitAppend d document tenantId id (w.certificateChain.lookup document) certificate w)
      (.act ⟨tid, .commit document tenantId id current certificate, outcome, reply⟩ :: log) := by
  obtain ⟨hp, hn⟩ := h.head_links document
  rw [hp] at hprev
  rw [hn] at hseq
  subst ht
  generalize hnext : commitAppend d document certificate.claims.tenantId id (w.certificateChain.lookup document)
    certificate w = next
  have hfresh {document' : DocumentPath} {certificate' : Certificate} (hc : certificate' ∈ history document' log) :
      d.sha256 certificate' ≠ d.sha256 certificate :=
    h.fresh hinj hs hdoc hseq hc
  have hstored {hash : String} (hne : hash ≠ d.sha256 certificate) :
      next.chainEntries.lookup hash = w.chainEntries.lookup hash := by
    rw [← hnext]
    exact AList.lookup_insert_ne hne
  have hnew : next.chainEntries.lookup (d.sha256 certificate) = some
      { tenantId := certificate.claims.tenantId, sequence := sequence (w.certificateChain.lookup document),
        previousHash := previousHash (w.certificateChain.lookup document), deletionRequestId := id,
        createdAt := w.clock } := by
    rw [← hnext]
    exact AList.lookup_insert _
  have hnewest : next.certificateChain.lookup document =
      some ⟨sequence (w.certificateChain.lookup document), some (d.sha256 certificate), some id, w.clock⟩ := by
    rw [← hnext]
    exact AList.lookup_insert _
  refine ⟨fun document' => ?_, fun document' => ?_, fun document' certificate' hc => ?_, fun hash entry hl => ?_,
    fun document' certificate' hc => ?_⟩
  · by_cases he : document = document'
    · subst he
      rw [history_self hw]
      exact ⟨hprev, hseq, h.linked document⟩
    · rw [history_ne he]
      exact h.linked document'
  · by_cases he : document = document'
    · subst he
      rw [history_self hw]
      exact ⟨_, _, hnewest, by rw [hseq, hn], rfl, hnew, rfl⟩
    · rw [history_ne he]
      have hdocs : next.certificateChain.lookup document' = w.certificateChain.lookup document' := by
        rw [← hnext]
        exact AList.lookup_insert_ne (Ne.symm he)
      refine (h.head document').frame hdocs fun certificate' hc entry hl => ?_
      exact ⟨entry, by rw [hstored (hfresh hc), hl], rfl⟩
  · rcases (mem_history_commit hw).mp hc with ⟨rfl, -⟩ | hc
    · exact ⟨_, hnew, rfl⟩
    · obtain ⟨entry, hl, hte⟩ := h.stored document' certificate' hc
      exact ⟨entry, by rw [hstored (hfresh hc), hl], hte⟩
  · by_cases hh : hash = d.sha256 certificate
    · subst hh
      rw [hnew] at hl
      obtain rfl := Option.some.inj hl
      exact ⟨document, certificate, (mem_history_commit hw).mpr (.inl ⟨rfl, rfl⟩), rfl, rfl, by rw [hseq, hn],
        by rw [hprev, hp]⟩
    · rw [hstored hh] at hl
      obtain ⟨document', certificate', hc, hch, hct, hsq, hpr⟩ := h.entry hash entry hl
      exact ⟨document', certificate', (mem_history_commit hw).mpr (.inr hc), hch, hct, hsq, hpr⟩
  · rcases (mem_history_commit hw).mp hc with ⟨rfl, rfl⟩ | hc
    · exact ⟨signed_subset _ hs, hdoc⟩
    · obtain ⟨hs', ht'⟩ := h.genuine document' certificate' hc
      exact ⟨signed_subset _ hs', ht'⟩

lemma runCommit_cases {id : String} {current : Option CertificateChainState} {outcome : Outcome}
    {reply : Except String Bool}
    (h : runCommit d document tenantId id current certificate outcome w = some (reply, w')) :
    (wentThrough outcome reply = true ∧ w.certificateChain.lookup document = current ∧
      w' = commitAppend d document tenantId id current certificate w) ∨ (wentThrough outcome reply = false ∧ w' = w) := by
  cases outcome with
  | done =>
    simp only [runCommit] at h
    split at h
    · rename_i hc
      obtain ⟨rfl, rfl⟩ := Prod.mk.inj (Option.some.inj h)
      exact .inl ⟨rfl, hc, rfl⟩
    · obtain ⟨rfl, rfl⟩ := Prod.mk.inj (Option.some.inj h)
      exact .inr ⟨rfl, rfl⟩
  | signed keyVersion signature => cases h
  | aborted =>
    obtain ⟨rfl, rfl⟩ := Prod.mk.inj (Option.some.inj h)
    exact .inr ⟨rfl, rfl⟩
  | failed =>
    obtain ⟨rfl, rfl⟩ := Prod.mk.inj (Option.some.inj h)
    exact .inr ⟨rfl, rfl⟩
  | unconfirmed retried =>
    simp only [runCommit] at h
    split at h
    · rename_i hc
      obtain ⟨-, rfl⟩ := Prod.mk.inj (Option.some.inj h)
      exact .inl ⟨rfl, hc, rfl⟩
    · contradiction

lemma updateEntry_sameEntries {f : CertificateChainEntry → CertificateChainEntry} (hf : ∀ entry, core (f entry) = core entry)
    {u : Unit} (h : w.updateEntry hash f = .ok (u, w')) :
    w'.certificateChain = w.certificateChain ∧ SameEntries w w' := by
  simp only [World.updateEntry] at h
  split at h
  · contradiction
  · rename_i entry hl
    obtain ⟨-, rfl⟩ := Prod.mk.inj (Except.ok.inj h)
    refine ⟨rfl, fun hash' => ?_⟩
    by_cases hh : hash' = hash
    · subst hh
      simp [hl, hf]
    · simp [AList.lookup_insert_ne hh]

lemma runUpdate_sameEntries {f : CertificateChainEntry → CertificateChainEntry} (hf : ∀ entry, core (f entry) = core entry)
    {outcome : Outcome} {reply : Except String Unit}
    (h : runUpdate (World.updateEntry hash f) outcome w = some (reply, w')) :
    w'.certificateChain = w.certificateChain ∧ SameEntries w w' := by
  cases outcome <;> simp only [runUpdate] at h
  · split at h
    · rename_i hu
      obtain ⟨-, rfl⟩ := Prod.mk.inj (Option.some.inj h)
      exact updateEntry_sameEntries hf hu
    · obtain ⟨-, rfl⟩ := Prod.mk.inj (Option.some.inj h)
      exact ⟨rfl, fun _ => rfl⟩
  · contradiction
  · contradiction
  · obtain ⟨-, rfl⟩ := Prod.mk.inj (Option.some.inj h)
    exact ⟨rfl, fun _ => rfl⟩
  · split at h
    · rename_i hu
      obtain ⟨-, rfl⟩ := Prod.mk.inj (Option.some.inj h)
      exact updateEntry_sameEntries hf hu
    · contradiction

lemma exec_sameEntries {op : Op} {outcome : Outcome} {reply : Except String op.Res}
    (h : op.exec d outcome w = some (reply, w'))
    (hop : ∀ document tenantId id current certificate, op ≠ .commit document tenantId id current certificate) :
    w'.certificateChain = w.certificateChain ∧ SameEntries w w' := by
  cases op
  case commit document tenantId id current certificate =>
    exact absurd rfl (hop document tenantId id current certificate)
  case recordTsaTimestamp hash info =>
    have hu : runUpdate (World.updateEntry hash fun entry => { entry with tsaTimestamp := some info }) outcome w =
      some (reply, w') := h
    refine runUpdate_sameEntries ?_ hu
    exact fun _ => rfl
  case recordRekorEntry hash info =>
    have hu : runUpdate (World.updateEntry hash fun entry => { entry with rekorEntry := some info }) outcome w =
      some (reply, w') := h
    refine runUpdate_sameEntries ?_ hu
    exact fun _ => rfl
  all_goals cases outcome <;> cases h <;> exact ⟨rfl, fun _ => rfl⟩

structure Recorded (w : World) (log : (ledger d).Log) : Prop where
  known (t : ℕ) (certificate : Certificate) : (appends d).known t log = some certificate → certificate ∈ signed log
  faithful : InjectiveOn d (signed log) → Faithful w log

lemma known_signed (hk : (appends d).known t (.act a :: log) = some certificate) :
    (appends d).known t log = some certificate ∨ certificate ∈ signed (.act a :: log) := by
  by_cases ht : a.tid = t
  · subst ht
    rw [known_act_self] at hk
    obtain ⟨t, op, outcome, reply⟩ := a
    cases op
    case signClaims claims previousHash sequence =>
      rcases reply with e | ⟨keyVersion, signature⟩
      · exact .inl hk
      · obtain rfl := Option.some.inj hk
        exact .inr List.mem_cons_self
    all_goals cases reply <;> exact .inl hk
  · rw [known_act_ne ht] at hk
    exact .inl hk

lemma Recorded.act (h : Recorded w log) (ha : Allowed (appends d) (fun _ => True) guard w log a w') :
    Recorded w' (.act a :: log) where
  known t certificate hk := by
    rcases known_signed hk with hk | hm
    · exact signed_subset _ (h.known t certificate hk)
    · exact hm
  faithful hinj := by
    have hfaithful := h.faithful hinj.earlier
    have hallowed := ha.allowed
    obtain ⟨t, op, outcome, reply⟩ := a
    have hexec : op.exec d outcome w = some (reply, w') := ha.exec
    cases op
    case commit document tenantId id current certificate =>
      have hcommit : runCommit d document tenantId id current certificate outcome w = some (reply, w') := hexec
      rcases runCommit_cases hcommit with ⟨hw, rfl, rfl⟩ | ⟨hw, rfl⟩
      · obtain ⟨hk, ht, hdoc, hprev, hseq⟩ := hallowed
        exact hfaithful.commit hinj.earlier (h.known t certificate hk) ht hdoc hprev hseq hw
      · exact hfaithful.frame (fun document' => by simp [appended, hw]) rfl (fun _ => rfl)
    all_goals
      obtain ⟨hchain, hentries⟩ := exec_sameEntries hexec (by simp)
      exact hfaithful.frame (fun _ => rfl) hchain hentries

lemma recorded_inductive : Inductive (appends d) (fun _ => True) guard (@Recorded d) where
  act h ha := h.act ha
  env {w w' log e} h _ he _ := by
    obtain rfl := Option.some.inj he
    exact ⟨h.known, fun hinj => (h.faithful hinj).frame (fun _ => rfl) rfl (fun _ => rfl)⟩

lemma recorded_initial (now : KeyRegistry.Date) : Recorded (emptyVault now) ([] : (ledger d).Log) where
  known t certificate hk := by contradiction
  faithful _ := by
    refine ⟨fun _ => trivial, fun document => ?_, nofun, fun hash entry hl => ?_, nofun⟩
    · simp [history, DescribesHead, emptyVault]
    · simp [emptyVault] at hl

lemma recorded_reachable {now : KeyRegistry.Date} {c : (ledger d).Config}
    (hr : Reachable guard (initial (emptyVault now)) c) :
    Recorded c.state c.log :=
  recorded_inductive.run (appends_governs d) (conforms_initial trivial) (recorded_initial now) hr

end Commits

section Integrity

def chainHead (d : Deployment) (tenantId : String) (w : World) : Option CertificateChainState :=
  (d.document tenantId).bind fun document => w.certificateChain.lookup document

def Stored (tenantId hash : String) (entry : CertificateChainEntry) (w : World) : Prop :=
  w.chainEntries.lookup hash = some entry ∧ entry.tenantId = tenantId

/-- The chain of one tenant as it is stored, with `n` entries. -/
structure Integrity (d : Deployment) (tenantId : String) (w : World) (signed : List Certificate) (n : ℕ) : Prop where
  complete (k : ℕ) : 0 < k → k ≤ n → ∃ hash entry, Stored tenantId hash entry w ∧ entry.sequence = k
  bounded (hash : String) (entry : CertificateChainEntry) : Stored tenantId hash entry w →
    0 < entry.sequence ∧ entry.sequence ≤ n
  unique (hash hash' : String) (entry entry' : CertificateChainEntry) : Stored tenantId hash entry w →
    Stored tenantId hash' entry' w → entry.sequence = entry'.sequence → hash = hash'
  first (hash : String) (entry : CertificateChainEntry) : Stored tenantId hash entry w → entry.sequence = 1 →
    entry.previousHash = none
  link (hash hash' : String) (entry entry' : CertificateChainEntry) : Stored tenantId hash entry w →
    Stored tenantId hash' entry' w → entry'.sequence = entry.sequence + 1 → entry'.previousHash = some hash
  certificate (hash : String) (entry : CertificateChainEntry) : Stored tenantId hash entry w →
    ∃ certificate ∈ signed, d.sha256 certificate = hash ∧ certificate.previousCertificateHash = entry.previousHash ∧
      certificate.chainSequence = entry.sequence
  empty : n = 0 → chainHead d tenantId w = none
  head : 0 < n → ∃ state hash entry, chainHead d tenantId w = some state ∧ Stored tenantId hash entry w ∧
    entry.sequence = n ∧ state.sequence = n ∧ state.lastHash = some hash ∧
    state.lastDeletionRequestId = some entry.deletionRequestId

/-- Only certificates of the tenant have been committed to the document that its id names. -/
def Alone (tenantId : String) (log : (ledger d).Log) : Prop :=
  ∀ document, d.document tenantId = some document → ∀ certificate ∈ history document log,
    certificate.claims.tenantId = tenantId

lemma Faithful.of_stored (h : Faithful w log) (hs : Stored tenantId hash entry w) :
    ∃ document, d.document tenantId = some document ∧ ∃ certificate ∈ history document log,
      certificate.claims.tenantId = tenantId ∧ d.sha256 certificate = hash ∧
      entry.sequence = certificate.chainSequence ∧ entry.previousHash = certificate.previousCertificateHash := by
  obtain ⟨hl, rfl⟩ := hs
  obtain ⟨document, certificate, hc, hh, ht, hseq, hprev⟩ := h.entry hash entry hl
  exact ⟨document, ht ▸ (h.genuine document certificate hc).2, certificate, hc, ht, hh, hseq, hprev⟩

lemma Faithful.stored_of_mem (h : Faithful w log) (hinj : InjectiveOn d (signed log))
    (hc : certificate ∈ history document log) : ∃ entry,
      Stored certificate.claims.tenantId (d.sha256 certificate) entry w ∧
        entry.sequence = certificate.chainSequence := by
  obtain ⟨entry, hl, ht⟩ := h.stored document certificate hc
  obtain ⟨document', certificate', hc', hh, -, hseq, -⟩ := h.entry _ entry hl
  obtain rfl := hinj certificate' (h.genuine document' certificate' hc').1 certificate (h.genuine document certificate hc).1 hh
  exact ⟨entry, ⟨hl, ht⟩, hseq⟩

lemma Faithful.integrity (h : Faithful w log) (hinj : InjectiveOn d (signed log)) (ha : Alone tenantId log)
    (hdoc : d.document tenantId = some document) :
    Integrity d tenantId w (signed log) (history document log).length := by
  have hlinked := h.linked document
  have hin {hash : String} {entry : CertificateChainEntry} (hs : Stored tenantId hash entry w) :
      ∃ certificate ∈ history document log, d.sha256 certificate = hash ∧
        entry.sequence = certificate.chainSequence ∧ entry.previousHash = certificate.previousCertificateHash := by
    obtain ⟨document', hdoc', certificate, hc, -, hrest⟩ := h.of_stored hs
    obtain rfl := Option.some.inj (hdoc'.symm.trans hdoc)
    exact ⟨certificate, hc, hrest⟩
  have hout {certificate : Certificate} (hc : certificate ∈ history document log) :
      ∃ entry, Stored tenantId (d.sha256 certificate) entry w ∧ entry.sequence = certificate.chainSequence := by
    rw [← ha document hdoc certificate hc]
    exact h.stored_of_mem hinj hc
  have hheads : chainHead d tenantId w = w.certificateChain.lookup document := by rw [chainHead, hdoc, Option.bind_some]
  constructor
  case complete =>
    intro k hk hle
    obtain ⟨certificate, hc, hs⟩ := hlinked.exists_seq hk hle
    obtain ⟨entry, hst, hseq⟩ := hout hc
    exact ⟨_, entry, hst, hseq.trans hs⟩
  case bounded =>
    intro hash entry hs
    obtain ⟨certificate, hc, -, hseq, -⟩ := hin hs
    rw [hseq]
    exact ⟨hlinked.seq_pos hc, hlinked.seq_le hc⟩
  case unique =>
    intro hash hash' entry entry' hs hs' he
    obtain ⟨certificate, hc, rfl, hseq, -⟩ := hin hs
    obtain ⟨certificate', hc', rfl, hseq', -⟩ := hin hs'
    rw [hlinked.seq_inj hc hc' (hseq.symm.trans (he.trans hseq'))]
  case first =>
    intro hash entry hs he
    obtain ⟨certificate, hc, -, hseq, hprev⟩ := hin hs
    exact hprev.trans (hlinked.prev_of_one hc (hseq.symm.trans he))
  case link =>
    intro hash hash' entry entry' hs hs' he
    obtain ⟨certificate, hc, rfl, hseq, -⟩ := hin hs
    obtain ⟨certificate', hc', -, hseq', hprev'⟩ := hin hs'
    refine hprev'.trans (hlinked.prev_of_succ hc hc' ?_)
    show certificate'.chainSequence = certificate.chainSequence + 1
    omega
  case certificate =>
    intro hash entry hs
    obtain ⟨certificate, hc, hh, hseq, hprev⟩ := hin hs
    exact ⟨certificate, (h.genuine document certificate hc).1, hh, hprev.symm, hseq.symm⟩
  case empty =>
    intro hn
    have hhead := h.head document
    rw [List.length_eq_zero_iff.mp hn] at hhead
    exact hheads.trans hhead
  case head =>
    intro hn
    have hhead := h.head document
    cases hh : history document log with
    | nil =>
      rw [hh] at hn
      contradiction
    | cons certificate cs =>
      rw [hh] at hhead hlinked
      obtain ⟨state, entry, hst, hseq, hlast, hl, hid⟩ := hhead
      have hc : certificate ∈ history document log := hh ▸ List.mem_cons_self
      obtain ⟨entry', ⟨hl', ht'⟩, hseq'⟩ := hout hc
      obtain rfl := Option.some.inj (hl'.symm.trans hl)
      have hlen : certificate.chainSequence = (certificate :: cs).length := hlinked.2.1
      exact ⟨state, _, entry', hheads.trans hst, ⟨hl', ht'⟩, hseq'.trans hlen, hseq.trans hlen, hlast, hid⟩

/-- No entry is ever stored for a tenant whose id names no document. -/
lemma Faithful.integrity_refused (h : Faithful w log) (hdoc : d.document tenantId = none) :
    Integrity d tenantId w (signed log) 0 := by
  have hnone {hash : String} {entry : CertificateChainEntry} (hs : Stored tenantId hash entry w) : False := by
    obtain ⟨document, hdoc', -⟩ := h.of_stored hs
    rw [hdoc] at hdoc'
    contradiction
  refine ⟨fun k hk hle => by omega, fun _ _ hs => (hnone hs).elim, fun _ _ _ _ hs => (hnone hs).elim,
    fun _ _ hs => (hnone hs).elim, fun _ _ _ _ hs => (hnone hs).elim, fun _ _ hs => (hnone hs).elim, fun _ => ?_,
    fun hn => absurd hn (Nat.lt_irrefl 0)⟩
  rw [chainHead, hdoc, Option.bind_none]

/-- The head is that of the document, so where it describes the tenant's last entry the document's
certificates are as many as the tenant's entries. -/
lemma Faithful.alone (h : Faithful w log) {n : ℕ} (hi : Integrity d tenantId w (signed log) n) :
    Alone tenantId log := by
  intro document hdoc certificate hc
  have hlinked := h.linked document
  have hheads : chainHead d tenantId w = w.certificateChain.lookup document := by rw [chainHead, hdoc, Option.bind_some]
  have hhead := h.head document
  have hlength : (history document log).length ≤ n := by
    cases hh : history document log with
    | nil => exact Nat.zero_le n
    | cons newest cs =>
      rw [hh] at hhead hlinked
      obtain ⟨state, -, hst, hseq, -⟩ := hhead
      rcases Nat.eq_zero_or_pos n with hn | hn
      · have hempty := hi.empty hn
        rw [hheads, hst] at hempty
        contradiction
      · obtain ⟨state', -, -, hst', -, -, hseq', -⟩ := hi.head hn
        rw [hheads, hst] at hst'
        obtain rfl := Option.some.inj hst'
        have hlen : newest.chainSequence = (newest :: cs).length := hlinked.2.1
        omega
  obtain ⟨hash, entry, hs, hseq⟩ := hi.complete certificate.chainSequence (hlinked.seq_pos hc)
    ((hlinked.seq_le hc).trans hlength)
  obtain ⟨document', hdoc', certificate', hc', ht, -, hseq', -⟩ := h.of_stored hs
  obtain rfl := Option.some.inj (hdoc'.symm.trans hdoc)
  rw [hlinked.seq_inj hc hc' (hseq.symm.trans hseq'), ht]

lemma Faithful.integrity_iff (h : Faithful w log) (hinj : InjectiveOn d (signed log)) (tenantId : String) :
    (∃ n, Integrity d tenantId w (signed log) n) ↔ Alone tenantId log := by
  refine ⟨fun hintegrity => ?_, fun ha => ?_⟩
  · obtain ⟨n, hi⟩ := hintegrity
    exact h.alone hi
  cases hdoc : d.document tenantId with
  | none => exact ⟨0, h.integrity_refused hdoc⟩
  | some document => exact ⟨_, h.integrity hinj ha hdoc⟩

/-- The chain that an operation can write to; the two updates of an entry are no appends. -/
def Op.appendsTo : Op → Option String
  | .commit _ tenantId _ _ _ => some tenantId
  | _ => none

def Op.isUpdate : Op → Bool
  | .recordTsaTimestamp _ _ => true
  | .recordRekorEntry _ _ => true
  | _ => false

def Unchanged (d : Deployment) (tenantId : String) (w w' : World) : Prop :=
  chainHead d tenantId w' = chainHead d tenantId w ∧ ∀ hash entry, Stored tenantId hash entry w' ↔ Stored tenantId hash entry w

lemma Unchanged.refl (d : Deployment) (tenantId : String) (w : World) : Unchanged d tenantId w w :=
  ⟨rfl, fun _ _ => Iff.rfl⟩

lemma head_after_commit {id other : String} (hdoc : d.document tenantId = some document)
    {current : Option CertificateChainState} (hc : w.certificateChain.lookup document = current) :
    chainHead d tenantId (commitAppend d document other id current certificate w) ≠ chainHead d tenantId w := by
  rw [chainHead, chainHead, hdoc, Option.bind_some, Option.bind_some, hc]
  intro h
  have hnew := (AList.lookup_insert _).symm.trans h
  cases current with
  | none => contradiction
  | some state =>
    have hsequence : sequence (some state) = state.sequence := congrArg CertificateChainState.sequence (Option.some.inj hnew)
    simp [sequence] at hsequence

lemma exec_unchanged_iff (h : Recorded w log) (ha : Allowed (appends d) (fun _ => True) guard w log a w')
    (hinj : InjectiveOn d (signed (.act a :: log))) (hu : a.op.isUpdate = false) (ht : a.op.appendsTo ≠ some tenantId) :
    Unchanged d tenantId w w' ↔ ∀ document, d.document tenantId = some document → appended document (.act a) = none := by
  have hfaithful := h.faithful hinj.earlier
  have hallowed := ha.allowed
  obtain ⟨t, op, outcome, reply⟩ := a
  have hexec : op.exec d outcome w = some (reply, w') := ha.exec
  cases op
  case commit document other id current certificate =>
    have hcommit : runCommit d document other id current certificate outcome w = some (reply, w') := hexec
    rcases runCommit_cases hcommit with ⟨hw, hcurrent, rfl⟩ | ⟨hw, rfl⟩
    · by_cases hdoc : d.document tenantId = some document
      · refine iff_of_false (fun hsame => head_after_commit hdoc hcurrent hsame.1) fun hnone => ?_
        have hentered := hnone document hdoc
        simp [appended, hw] at hentered
      · refine iff_of_true ⟨?_, fun hash entry => ?_⟩ fun document' hdoc' => ?_
        · cases hdoc' : d.document tenantId with
          | none => rw [chainHead, chainHead, hdoc', Option.bind_none, Option.bind_none]
          | some document' =>
            have hne : document' ≠ document := by
              rintro rfl
              exact hdoc hdoc'
            rw [chainHead, chainHead, hdoc', Option.bind_some, Option.bind_some]
            exact AList.lookup_insert_ne hne
        · obtain ⟨hk, hct, hother, -, hseq⟩ := hallowed
          have hne : other ≠ tenantId := fun he => ht (congrArg some he)
          by_cases hh : hash = d.sha256 certificate
          · subst hh
            have hnext : certificate.chainSequence = (history document log).length + 1 := by
              rw [hseq, ← hcurrent, (hfaithful.head_links document).2]
            constructor
            · rintro ⟨hl, rfl⟩
              obtain rfl := Option.some.inj ((AList.lookup_insert _).symm.trans hl)
              exact absurd rfl hne
            · rintro ⟨hl, rfl⟩
              obtain ⟨document', certificate', hc', he, -⟩ := hfaithful.entry _ entry hl
              exact absurd he (hfaithful.fresh hinj.earlier (h.known t certificate hk) (hct ▸ hother) hnext hc')
          · simp only [Stored, commitAppend, AList.lookup_insert_ne hh]
        · have hne : document ≠ document' := by
            rintro rfl
            exact hdoc hdoc'
          simp [appended, hne]
    · exact iff_of_true (Unchanged.refl d tenantId _) fun document' _ => by simp [appended, hw]
  case recordTsaTimestamp => contradiction
  case recordRekorEntry => contradiction
  all_goals
    have hsame : w' = w := by cases outcome <;> cases hexec <;> rfl
    rw [hsame]
    exact iff_of_true (Unchanged.refl d tenantId w) fun _ _ => rfl

/-- Whatever the interleaving, a tenant's chain is whole exactly as long as nobody else's certificate is
committed to the document that its id names, and such a commit is all that changes it from outside. -/
theorem chain_integrity_iff {now : KeyRegistry.Date} {c : (ledger d).Config}
    (hr : Reachable free (initial (emptyVault now)) c) :
    (InjectiveOn d (signed c.log) → ∀ tenantId,
      (∃ n, Integrity d tenantId c.state (signed c.log) n) ↔ Alone tenantId c.log) ∧
    ∀ a c', Performs free c a c' → InjectiveOn d (signed c'.log) → a.op.isUpdate = false →
      ∀ tenantId, a.op.appendsTo ≠ some tenantId →
        (Unchanged d tenantId c.state c'.state ↔
          ∀ document, d.document tenantId = some document → appended document (.act a : (ledger d).Entry) = none) := by
  have hrec := recorded_reachable hr
  refine ⟨fun hinj tenantId => (hrec.faithful hinj).integrity_iff hinj tenantId, ?_⟩
  intro a c' hp hinj hu tenantId ht
  have hconf : Conforms (appends d) (fun _ => True) c := (conforms_initial trivial).reachable (appends_governs d) hr
  rw [hp.2] at hinj
  exact exec_unchanged_iff hrec (hconf.allowed_of_performs (appends_governs d) hp) hinj hu ht

end Integrity

section Runs

abbrev LedgerEvent := (ledger smallDeployment).Event

abbrev LedgerConfig := (ledger smallDeployment).Config

def claimsOf (tenantId : String) : Claims :=
  claimsFor "ada" tenantId (.new "ada" "request" tenantId none 0) ⟨.shredded, 0, none, none, none, none⟩ [] [] []
    "fingerprint" 0 0

/-- Two appends of one tenant read the same head, and the one that commits later starts over. -/
def contended : List LedgerEvent :=
  [.start (.append "acme" "first" (claimsOf "acme") rfl), .start (.append "acme" "second" (claimsOf "acme") rfl),
    .start (.append "globex" "third" (claimsOf "globex") rfl),
    .act 0 .done, .act 1 .done, .act 0 (.signed "version" "a"), .act 1 (.signed "version" "b"), .act 2 .done,
    .act 1 .done, .act 0 .done, .act 2 (.signed "version" "c"), .act 2 (.unconfirmed true),
    .act 0 .done, .act 0 (.signed "version" "d"), .act 0 .done]

theorem chain_integrity_contended : ∃ c : LedgerConfig, Reachable free (initial (emptyVault 0)) c ∧
    InjectiveOn smallDeployment (signed c.log) ∧
    (history ["acme"] c.log).map (fun certificate => (certificate.signature, certificate.previousCertificateHash)) =
      [("d", some "b"), ("b", none)] ∧
    (history ["globex"] c.log).map Certificate.signature = ["c"] ∧
    ∀ tenantId ∈ ["acme", "globex"], ∃ n, Integrity smallDeployment tenantId c.state (signed c.log) n := by
  have h : ∃ c : LedgerConfig, Reachable free (initial (emptyVault 0)) c ∧
      InjectiveOn smallDeployment (signed c.log) ∧
      (history ["acme"] c.log).map (fun certificate => (certificate.signature, certificate.previousCertificateHash)) =
        [("d", some "b"), ("b", none)] ∧
      (history ["globex"] c.log).map Certificate.signature = ["c"] ∧
      ∀ tenantId ∈ ["acme", "globex"], ∀ document ∈ documentPath tenantId, ∀ certificate ∈ history document c.log,
        certificate.claims.tenantId = tenantId :=
    exists_reachable contended _ (by decide +kernel)
  obtain ⟨c, hr, hinj, hacme, hglobex, halone⟩ := h
  exact ⟨c, hr, hinj, hacme, hglobex, fun tenantId ht => ((chain_integrity_iff hr).1 hinj tenantId).mpr (halone tenantId ht)⟩

/-- Two tenants whose ids name one document take turns in one chain. -/
def takingTurns : List LedgerEvent :=
  [.start (.append "acme" "first" (claimsOf "acme") rfl), .start (.append "/acme" "second" (claimsOf "/acme") rfl),
    .act 0 .done, .act 0 (.signed "version" "a"), .act 0 .done,
    .act 1 .done, .act 1 (.signed "version" "b"), .act 1 .done]

theorem tenants_share_head : ∃ c : LedgerConfig, Reachable free (initial (emptyVault 0)) c ∧
    InjectiveOn smallDeployment (signed c.log) ∧
    (c.state.chainEntries.lookup "b").map (fun entry => (entry.tenantId, entry.sequence)) = some ("/acme", 2) ∧
    ∀ n, ¬ Integrity smallDeployment "acme" c.state (signed c.log) n := by
  have h : ∃ c : LedgerConfig, Reachable free (initial (emptyVault 0)) c ∧
      InjectiveOn smallDeployment (signed c.log) ∧
      (c.state.chainEntries.lookup "b").map (fun entry => (entry.tenantId, entry.sequence)) = some ("/acme", 2) ∧
      ∃ certificate ∈ history ["acme"] c.log, certificate.claims.tenantId ≠ "acme" :=
    exists_reachable takingTurns _ (by decide +kernel)
  obtain ⟨c, hr, hinj, hentry, certificate, hc, hne⟩ := h
  refine ⟨c, hr, hinj, hentry, fun n hi => hne ?_⟩
  exact ((recorded_reachable hr).faithful hinj).alone hi ["acme"] (by decide +kernel) certificate hc

end Runs

end ChameleonVault.CertificateChain
