import ChameleonVault.ScopedAccess.Ledger

/-! One claim link gives one key: of the attempts that race for it only the winner is told a key,
and an attempt that starts too late is told none. -/

namespace ChameleonVault.ScopedAccess

open Concurrency Interleaving Discipline
open KeyRegistry (Date)

variable {hash : String → String}

section Attempts

variable {log : (accessRecords hash).Log} {a : (accessRecords hash).Action} {s s' : State} {t u : ℕ}
  {id keyHash claimToken key : String}

def answer : (accessRecords hash).Entry → Option (ℕ × String × String)
  | .act ⟨t, .send (.claimed claimToken (some claimed)), _, _⟩ => some (t, claimToken, claimed.apiKey)
  | _ => none

/-- This attempt at the claim token was answered with this key. -/
abbrev Returned (log : (accessRecords hash).Log) (t : ℕ) (claimToken key : String) : Prop :=
  (t, claimToken, key) ∈ log.filterMap answer

/-- The transaction of this caller put the key's hash under the record. -/
def IssuedBy (log : (accessRecords hash).Log) (t : ℕ) (id keyHash : String) : Prop :=
  ∃ a : (accessRecords hash).Action, .act a ∈ log ∧ a.tid = t ∧ change (.act a) = some (.issue id keyHash)

structure Attributed (log : (accessRecords hash).Log) : Prop where
  issue {t : ℕ} {id keyHash : String} : IssuedBy log t id keyHash → ∃ secret looked, Stored log t secret ∧
    (knows t log).looked = some (id, looked) ∧ keyHash = hash secret
  returned {t : ℕ} {claimToken key : String} : Returned log t claimToken key → (knows t log).issued = true ∧
    (knows t log).secret = some key ∧ ∃ looked, (knows t log).looked = some (hash claimToken, looked)

lemma mem_answers_cons {e : (accessRecords hash).Entry} {r : ℕ × String × String} :
    r ∈ (e :: log).filterMap answer ↔ answer e = some r ∨ r ∈ log.filterMap answer := by
  cases h : answer e <;> simp [h, eq_comm]

lemma answer_permitted (hp : (knows a.tid log).Permits hash a.op) (h : answer (.act a) = some (t, claimToken, key)) :
    (knows t log).issued = true ∧ (knows t log).secret = some key ∧
      ∃ looked, (knows t log).looked = some (hash claimToken, looked) := by
  obtain ⟨u, op, choice, reply⟩ := a
  simp only [answer] at h
  split at h
  · rename_i he
    cases he
    cases h
    exact hp
  · cases h

lemma Attributed.act (h : Attributed log) (hp : (knows a.tid log).Permits hash a.op) : Attributed (.act a :: log) := by
  refine ⟨?_, ?_⟩
  · rintro t id keyHash ⟨b, hm, rfl, hc⟩
    rcases List.mem_cons.mp hm with he | hm
    · obtain rfl := Entry.act.inj he
      exact issuer hp hc
    · obtain ⟨secret, looked, hstored, hlooked, rfl⟩ := h.issue ⟨b, hm, rfl, hc⟩
      exact ⟨secret, looked, (hstored.later hp).1, (hstored.later hp).2.trans hlooked, rfl⟩
  · intro t claimToken key hm
    have hknown : (knows t log).issued = true ∧ (knows t log).secret = some key ∧
        ∃ looked, (knows t log).looked = some (hash claimToken, looked) := by
      rcases mem_answers_cons.mp hm with he | hm
      · exact answer_permitted hp he
      · exact h.returned hm
    obtain ⟨hissued, hsecret, looked, hlooked⟩ := hknown
    obtain ⟨hs, hl, -, hi⟩ := kept hp hsecret
    exact ⟨hi hissued, hs, looked, hl.trans hlooked⟩

lemma attributed_env {n : ℕ} (h : Attributed log) : Attributed (.env n :: log) := by
  refine ⟨?_, ?_⟩
  · rintro t id keyHash ⟨b, hm, rfl, hc⟩
    exact h.issue ⟨b, (List.mem_cons.mp hm).resolve_left nofun, rfl, hc⟩
  · intro t claimToken key hm
    exact h.returned ((mem_answers_cons.mp hm).resolve_left nofun)

lemma attributed_inductive (hash : String → String) :
    Inductive (secretKeeping hash) (fun _ => True) (freshSecrets hash) (fun _ log => Attributed log) := by
  refine ⟨fun {s s' log a} hi ha => hi.act ha.allowed, fun hi _ _ _ => attributed_env hi⟩

lemma attributed_reachable {now : Date} {c : (accessRecords hash).Config}
    (h : Reachable (freshSecrets hash) (noRecords hash now) c) : Attributed c.log := by
  refine (attributed_inductive hash).run (secretKeeping_governs hash) (conforms_initial trivial) ⟨?_, ?_⟩ h
  · rintro _ _ _ ⟨_, hm, -⟩
    cases hm
  · exact nofun

lemma Consistent.holds_of_issued (h : Consistent s log) (hi : (knows t log).issued = true)
    (hs : (knows t log).secret = some key) {looked : AnalystAccess} (hl : (knows t log).looked = some (id, looked)) :
    ∃ record, s.docs.lookup id = some record ∧ record.credentialKeyHash = some (hash key) := by
  obtain ⟨secret, id', looked', record, hstored, hlooked, hrecord, hk⟩ := h.issued hi
  obtain rfl := Option.some.inj (hs.symm.trans hstored.1)
  obtain ⟨rfl, -⟩ := Prod.mk.inj (Option.some.inj (hl.symm.trans hlooked))
  exact ⟨record, hrecord, hk⟩

lemma exists_issuedBy (h : Change.issue id keyHash ∈ changes log) : ∃ t, IssuedBy log t id keyHash := by
  obtain ⟨e, hm, hc⟩ := List.mem_filterMap.mp h
  cases e with
  | act a => exact ⟨a.tid, a, hm, rfl, hc⟩
  | env n => cases hc

end Attempts

section Expiry

variable {log base : (accessRecords hash).Log} {a : (accessRecords hash).Action} {s s' : State} {t : ℕ}
  {id : String} {expiresAt : Date}

/-- What is known of an expired record, and of every caller that had done nothing by then. -/
structure Expired (base : (accessRecords hash).Log) (id : String) (expiresAt : Date) (s : State)
    (log : (accessRecords hash).Log) : Prop where
  clock : expiresAt < s.clock
  record : ∃ record, s.docs.lookup id = some record ∧ record.expiresAt = expiresAt
  late {t : ℕ} : (∀ a, Entry.act a ∈ base → a.tid ≠ t) →
    (∀ now, (knows t log).now = some now → expiresAt < now) ∧
    (∀ looked, (knows t log).looked = some (id, looked) → looked.expiresAt = expiresAt ∧ (knows t log).issued = false)

lemma Expired.next (h : Expired base id expiresAt s log) (hcons : Consistent s log)
    (hp : (knows a.tid log).Permits hash a.op) (hexec : a.op.exec a.choice s = some (a.reply, s'))
    (ht : ∀ b, Entry.act b ∈ base → b.tid ≠ a.tid) :
    (∀ now, ((knows a.tid log).next a.op a.reply).now = some now → expiresAt < now) ∧
    (∀ looked, ((knows a.tid log).next a.op a.reply).looked = some (id, looked) →
      looked.expiresAt = expiresAt ∧ ((knows a.tid log).next a.op a.reply).issued = false) := by
  obtain ⟨hnow, hlooked⟩ := h.late ht
  obtain ⟨t, op, choice, reply⟩ := a
  simp only at hp hexec hnow hlooked ⊢
  cases op with
  | dateNow =>
    cases reply with
    | error e => exact ⟨hnow, hlooked⟩
    | ok now =>
      cases choice <;> cases hexec
      refine ⟨fun now hn => ?_, hlooked⟩
      obtain rfl := Option.some.inj hn
      exact h.clock
  | get id' =>
    rcases reply with _ | _ | looked
    · exact ⟨hnow, hlooked⟩
    · exact ⟨hnow, hlooked⟩
    · have hread : s.docs.lookup id' = some looked := by
        cases choice with
        | done => exact Except.ok.inj (Prod.mk.inj (Option.some.inj hexec)).1
        | fail committed => cases committed <;> cases hexec
        | _ => cases hexec
      refine ⟨hnow, fun looked' hl => ?_⟩
      obtain ⟨rfl, rfl⟩ := Prod.mk.inj (Option.some.inj hl)
      obtain ⟨record, hr, he⟩ := h.record
      obtain rfl := Option.some.inj (hread.symm.trans hr)
      refine ⟨he, ?_⟩
      have hsecret : (knows t log).secret = none := hp
      cases hissued : (knows t log).issued with
      | false => exact hissued
      | true =>
        obtain ⟨secret, _, _, _, hstored, -⟩ := hcons.issued hissued
        cases hsecret.symm.trans hstored.1
  | claimAndIssueCredential id' keyHash =>
    obtain ⟨secret, looked, now, -, -, hl, -, hn, hle⟩ := hp
    have hne : id' ≠ id := by
      rintro rfl
      rw [(hlooked looked hl).1] at hle
      exact absurd hle (Nat.not_le_of_lt (hnow now hn))
    have hother (looked' : AnalystAccess) : (knows t log).looked ≠ some (id, looked') := by
      intro hl'
      exact hne (Prod.mk.inj (Option.some.inj (hl.symm.trans hl'))).1
    rcases reply with _ | _ | _ <;> exact ⟨hnow, fun looked' hl' => absurd hl' (hother looked')⟩
  | _ => cases reply <;> exact ⟨hnow, hlooked⟩

lemma Expired.act (h : Expired base id expiresAt s log) (hcons : Consistent s log)
    (hp : (knows a.tid log).Permits hash a.op) (hexec : a.op.exec a.choice s = some (a.reply, s')) :
    Expired base id expiresAt s' (.act a :: log) := by
  have hc := exec_changes hexec
  refine ⟨?_, ?_, fun {t} ht => ?_⟩
  · rw [hc.clock]
    exact h.clock
  · obtain ⟨record, hr, he⟩ := h.record
    have hfresh (id : String) (record : AnalystAccess) (hw : change (.act a) = some (.write id record)) :
        s.docs.lookup id = none := by
      obtain ⟨_, _, _, _, hnone, _⟩ := hcons.writer hp hw
      exact hnone
    obtain ⟨record', hr', hs⟩ := (hc.lookup hfresh).1 record hr
    refine ⟨record', hr', ?_⟩
    cases hs <;> exact he
  · rcases known_act_cases (D := secretKeeping hash) a t log with hk | ⟨rfl, hk⟩
    · simp only [knows, hk]
      exact h.late ht
    · simp only [knows, hk]
      exact h.next hcons hp hexec ht

lemma expired_inductive (base : (accessRecords hash).Log) (id : String) (expiresAt : Date) :
    Inductive (secretKeeping hash) (fun _ => True) (freshSecrets hash)
      (fun s log => (Consistent s log ∧ Recorded s log) ∧ Expired base id expiresAt s log) := by
  refine ⟨fun {s s' log a} hi ha => ?_, fun {s s' log n} hi hv he hg => ?_⟩
  · exact ⟨(ledger_inductive hash).act hi.1 ha, hi.2.act hi.1.1 ha.allowed ha.exec⟩
  · refine ⟨(ledger_inductive hash).env hi.1 hv he hg, ?_⟩
    obtain rfl := Option.some.inj he
    exact ⟨Nat.lt_add_right n hi.2.clock, hi.2.record, hi.2.late⟩

end Expiry

section Results

variable {now : Date} {c d : (accessRecords hash).Config} {claimToken key : String}

/-- The presented key is told apart from every secret that was issued. -/
def Recognised (log : (accessRecords hash).Log) (key : String) : Prop :=
  ∀ secret ∈ secrets log, hash key = hash secret → key = secret

/-- Presenting the key finds the record under this id. -/
abbrev Resolves (hash : String → String) (s : State) (key id : String) : Prop :=
  (Op.exec (.resolveCredential (hash key)) (.found id) s).isSome = true

lemma resolves_iff {s : State} {id : String} :
    Resolves hash s key id ↔ ∃ record, s.docs.lookup id = some record ∧ record.credentialKeyHash = some (hash key) := by
  simp only [Resolves, Op.exec, Option.isSome_map, Option.isSome_iff_exists, Option.filter_eq_some_iff, hasKeyHash,
    beq_iff_eq]

def isUnclaimed (id : String) : Change → Bool
  | .write id' record => id' == id && record.credentialKeyHash.isNone
  | _ => false

/-- The token was handed out as a claim link. -/
abbrev IsClaimLink (log : (accessRecords hash).Log) (claimToken : String) : Prop :=
  (changes log).any (isUnclaimed (hash claimToken)) = true

lemma isClaimLink_iff {log : (accessRecords hash).Log} : IsClaimLink log claimToken ↔
    ∃ record, .write (hash claimToken) record ∈ changes log ∧ record.credentialKeyHash = none := by
  simp only [IsClaimLink, List.any_eq_true]
  constructor
  · rintro ⟨change, hm, h⟩
    cases change with
    | write id record =>
      simp only [isUnclaimed, Bool.and_eq_true, beq_iff_eq, Option.isNone_iff_eq_none] at h
      obtain ⟨rfl, hn⟩ := h
      exact ⟨record, hm, hn⟩
    | _ => cases h
  · rintro ⟨record, hm, hn⟩
    exact ⟨_, hm, by simp [isUnclaimed, hn]⟩

lemma same_attempt (hd : Reachable (freshSecrets hash) (noRecords hash now) d) {t u : ℕ} {key key' : String}
    (h : Returned d.log t claimToken key) (h' : Returned d.log u claimToken key') : t = u ∧ key = key' := by
  have hcons := (ledger_reachable hd).1
  have hattr := attributed_reachable hd
  obtain ⟨hi, hs, _, hl⟩ := hattr.returned h
  obtain ⟨hi', hs', _, hl'⟩ := hattr.returned h'
  obtain ⟨record, hr, hk⟩ := hcons.holds_of_issued hi hs hl
  obtain ⟨record', hr', hk'⟩ := hcons.holds_of_issued hi' hs' hl'
  obtain rfl := Option.some.inj (hr.symm.trans hr')
  obtain rfl := hcons.owner hs hs' (Option.some.inj (hk.symm.trans hk'))
  exact ⟨rfl, Option.some.inj (hs.symm.trans hs')⟩

lemma changes_mono (hd : Reachable (freshSecrets hash) c d) {change : Change} (h : change ∈ changes c.log) :
    change ∈ changes d.log :=
  (hd.log_suffix.sublist.filterMap _).subset h

lemma IssuedBy.later {t : ℕ} {id keyHash : String} (h : IssuedBy c.log t id keyHash)
    (hd : Reachable (freshSecrets hash) c d) : IssuedBy d.log t id keyHash := by
  obtain ⟨a, hm, ht, hc⟩ := h
  exact ⟨a, hd.log_suffix.subset hm, ht, hc⟩

lemma resolving_key (hc : Reachable (freshSecrets hash) (noRecords hash now) c) (hd : Reachable (freshSecrets hash) c d)
    (hlink : IsClaimLink c.log claimToken) (hkey : Recognised d.log key)
    (hresolves : Resolves hash c.state key (hash claimToken)) :
    ∃ t, IssuedBy c.log t (hash claimToken) (hash key) ∧
      ∀ u key', Returned d.log u claimToken key' → u = t ∧ key' = key := by
  obtain ⟨record, hl, hk⟩ := resolves_iff.mp hresolves
  obtain ⟨-, hrec⟩ := ledger_reachable hc
  obtain ⟨hcons', hrec'⟩ := ledger_reachable (hc.trans hd)
  obtain ⟨first, hfirst, hunclaimed⟩ := isClaimLink_iff.mp hlink
  obtain ⟨first', hfirst', -, hhash, -⟩ := hrec.written hl
  obtain rfl := hrec.once hfirst hfirst'
  have hissue : .issue (hash claimToken) (hash key) ∈ changes c.log := by
    simpa [hunclaimed] using (hhash (hash key)).mp hk
  obtain ⟨t, hby⟩ := exists_issuedBy hissue
  refine ⟨t, hby, fun u key' hreturned => ?_⟩
  have hattr := attributed_reachable (hc.trans hd)
  obtain ⟨hi, hs, looked, hlooked⟩ := hattr.returned hreturned
  obtain ⟨record', hl', hk'⟩ := hcons'.holds_of_issued hi hs hlooked
  obtain ⟨first', -, -, hhash', -⟩ := hrec'.written hl'
  have hsame : record'.credentialKeyHash = some (hash key) := (hhash' (hash key)).mpr (.inr (changes_mono hd hissue))
  have he : hash key = hash key' := Option.some.inj (hsame.symm.trans hk')
  obtain rfl := hkey key' (hcons'.held hs) he
  obtain ⟨secret, -, hstored, -, hsecret⟩ := hattr.issue (hby.later hd)
  exact ⟨hcons'.owner hs hstored.1 hsecret, rfl⟩

lemma late_attempt (hc : Reachable (freshSecrets hash) (noRecords hash now) c) (hd : Reachable (freshSecrets hash) c d)
    {record : AnalystAccess} (hl : c.state.docs.lookup (hash claimToken) = some record)
    (hexpired : record.expiresAt < c.state.clock) {t : ℕ} (ht : ∀ a, Entry.act a ∈ c.log → a.tid ≠ t) :
    ¬ Returned d.log t claimToken key := by
  intro hreturned
  have hconf : Conforms (secretKeeping hash) (fun _ => True) c :=
    (conforms_initial trivial).reachable (secretKeeping_governs hash) hc
  have hstart : Expired c.log (hash claimToken) record.expiresAt c.state c.log := by
    refine ⟨hexpired, ⟨record, hl, rfl⟩, fun {t} ht => ?_⟩
    have hk : knows t c.log = {} := known_eq_start ht
    rw [hk]
    exact ⟨nofun, nofun⟩
  have hlate := ((expired_inductive c.log (hash claimToken) record.expiresAt).run (secretKeeping_governs hash) hconf
    ⟨ledger_reachable hc, hstart⟩ hd).2
  obtain ⟨hissued, -, looked, hlooked⟩ := (attributed_reachable (hc.trans hd)).returned hreturned
  have hnot := ((hlate.late ht).2 looked hlooked).2
  rw [hissued] at hnot
  cases hnot

theorem claim_once (hc : Reachable (freshSecrets hash) (noRecords hash now) c) (hd : Reachable (freshSecrets hash) c d) :
    (∀ t u key key', Returned d.log t claimToken key → Returned d.log u claimToken key' → t = u ∧ key = key') ∧
    (IsClaimLink c.log claimToken → ∀ key, Recognised d.log key → Resolves hash c.state key (hash claimToken) →
      ∃ t, IssuedBy c.log t (hash claimToken) (hash key) ∧
        ∀ u key', Returned d.log u claimToken key' → u = t ∧ key' = key) ∧
    (∀ record, c.state.docs.lookup (hash claimToken) = some record → record.expiresAt < c.state.clock →
      ∀ t key, (∀ a, Entry.act a ∈ c.log → a.tid ≠ t) → ¬ Returned d.log t claimToken key) :=
  ⟨fun _ _ _ _ => same_attempt (hc.trans hd), fun hlink _ hkey hresolves => resolving_key hc hd hlink hkey hresolves,
    fun _ hl hexpired _ _ ht => late_attempt hc hd hl hexpired ht⟩

section Runs

/-- The digests of the secrets in the runs below. -/
def sha256 (secret : String) : String :=
  ([("claim-token", "abfc1de71d4684842800719f5d6407b1e0ef7965ad4473a1cd8632462eec1b8c"),
    ("first-key", "9e24b55356ef2a121ab5fd1a3ee8a3c9191e837f3853e399a369e9044ff183f7"),
    ("second-key", "f397f260a275cc4d42e7965c556167bf3f068aed491d35a8f5b38c8c2db96bb0"),
    ("service-key", "bb9c603e81f9aca6dea2f87d00b3d179a97dfd879873bee004e9b62beacbff4e")].lookup secret).getD ""

abbrev AccessEvent := (accessRecords sha256).Event

/-- Two attempts find the link unclaimed, and the one that generated its key later issues it first. -/
def racing : List AccessEvent :=
  [.start (.createClaim "acme" "ada@acme.com" .analyst), .act 0 (.secret "claim-token"), .act 0 .done, .act 0 .done,
    .act 0 .done, .act 0 .done, .start (.claim "claim-token"), .start (.claim "claim-token"), .act 1 .done,
    .act 2 .done, .act 1 .done, .act 2 .done, .act 1 (.secret "first-key"), .act 2 (.secret "second-key"),
    .act 2 .done, .env (claimExpiryMs + 1)]

def answered : List AccessEvent :=
  [.act 1 .done, .act 1 .done, .act 2 .done, .start (.claim "claim-token"), .act 3 .done, .act 3 .done]

def sentKeys (log : (accessRecords sha256).Log) : List (ℕ × String × String) := log.filterMap answer

theorem claim_once_raced : ∃ c d : (accessRecords sha256).Config,
    Reachable (freshSecrets sha256) (noRecords sha256 0) c ∧ Reachable (freshSecrets sha256) c d ∧
    sentKeys d.log = [(2, "claim-token", "second-key")] ∧
    IssuedBy c.log 2 (sha256 "claim-token") (sha256 "second-key") ∧
    ∀ key, ¬ Returned d.log 3 "claim-token" key := by
  have h : ∃ c d : (accessRecords sha256).Config, Reachable (freshSecrets sha256) (noRecords sha256 0) c ∧
      Reachable (freshSecrets sha256) c d ∧ sentKeys d.log = [(2, "claim-token", "second-key")] ∧
      IsClaimLink c.log "claim-token" ∧ secrets d.log = ["second-key", "first-key", "claim-token"] ∧
      Resolves sha256 c.state "second-key" (sha256 "claim-token") ∧
      (c.state.docs.lookup (sha256 "claim-token")).any (fun record => record.expiresAt < c.state.clock) = true ∧
      (c.log.all fun e => match e with
        | .act a => a.tid ≠ 3
        | .env _ => true) = true :=
    exists_reachable_later racing answered _ (by decide +kernel)
  obtain ⟨c, d, hc, hd, hsent, hlink, hsecrets, hresolves, hexpired, hlate⟩ := h
  obtain ⟨-, hwinner, hrefused⟩ : _ ∧ _ ∧ _ := @claim_once sha256 0 c d "claim-token" hc hd
  have hknown : Recognised d.log "second-key" := by
    rw [Recognised, hsecrets]
    decide +kernel
  have hwon : Returned d.log 2 "claim-token" "second-key" := by
    rw [Returned, show d.log.filterMap answer = _ from hsent]
    exact List.mem_singleton_self _
  obtain ⟨t, hissued, honly⟩ := hwinner hlink "second-key" hknown hresolves
  obtain ⟨rfl, -⟩ := honly 2 "second-key" hwon
  refine ⟨c, d, hc, hd, hsent, hissued, fun key => ?_⟩
  obtain ⟨record, hl, hlt⟩ := (Option.any_eq_true _ _).mp hexpired
  refine hrefused record hl (of_decide_eq_true hlt) 3 key fun a ha => ?_
  simpa using List.all_eq_true.mp hlate (.act a) ha

end Runs

end Results

end ChameleonVault.ScopedAccess
