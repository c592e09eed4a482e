import ChameleonVault.ScopedAccess.Secrets

/-! What the log of a run says of the records, as long as the hashes of no two secrets collide. -/

namespace ChameleonVault.ScopedAccess

open Concurrency Interleaving Discipline
open KeyRegistry (Date)

variable {hash : String → String}

section Log

def secretOf : (accessRecords hash).Entry → Option String
  | .act ⟨_, .generateSecret, _, .ok secret⟩ => some secret
  | _ => none

def secrets (log : (accessRecords hash).Log) : List String := log.filterMap secretOf

def changes (log : (accessRecords hash).Log) : List Change := log.filterMap change

/-- A secret is never generated whose hash is that of an earlier one. -/
def freshSecrets (hash : String → String) : (accessRecords hash).Guard
  | _, log, e => (secretOf e).all (fun secret => (secrets log).all fun earlier => hash secret != hash earlier) = true

instance (s : State) (log : (accessRecords hash).Log) (e : (accessRecords hash).Entry) :
    Decidable (freshSecrets hash s log e) :=
  inferInstanceAs (Decidable (_ = true))

def noRecords (hash : String → String) (now : Date) : (accessRecords hash).Config := initial ⟨now, ∅⟩

abbrev knows (t : ℕ) (log : (accessRecords hash).Log) : Knowledge := (secretKeeping hash).known t log

variable {a : (accessRecords hash).Action} {log : (accessRecords hash).Log} {s s' : State}

lemma secret_next {q : Knowledge} {op : Op} {reply : Except String op.Res} {secret : String}
    (h : (q.next op reply).secret = some secret) :
    q.secret = some secret ∨ ∃ t choice, @secretOf hash (.act ⟨t, op, choice, reply⟩) = some secret := by
  cases op with
  | generateSecret =>
    cases reply with
    | error e => exact .inl h
    | ok value => exact .inr ⟨0, .done, h⟩
  | get id => rcases reply with _ | _ | _ <;> exact .inl h
  | claimAndIssueCredential id keyHash => rcases reply with _ | _ | _ <;> exact .inl h
  | _ => cases reply <;> exact .inl h

lemma secretOf_act {t u : ℕ} {op : Op} {choice choice' : Outcome} {reply : Except String op.Res} :
    @secretOf hash (.act ⟨t, op, choice, reply⟩) = @secretOf hash (.act ⟨u, op, choice', reply⟩) := by
  cases op with
  | generateSecret => cases reply <;> rfl
  | _ => rfl

/-- What a caller has once stored a secret for stays as it is. -/
lemma kept_next {q : Knowledge} {op : Op} {reply : Except String op.Res} {secret : String} (hp : q.Permits hash op)
    (h : q.secret = some secret) : (q.next op reply).secret = some secret ∧ (q.next op reply).looked = q.looked ∧
      (q.used = true → (q.next op reply).used = true) ∧ (q.issued = true → (q.next op reply).issued = true) := by
  cases op with
  | generateSecret =>
    have hnone : q.secret = none := hp
    rw [hnone] at h
    cases h
  | get id =>
    have hnone : q.secret = none := hp
    rw [hnone] at h
    cases h
  | claimAndIssueCredential id keyHash =>
    rcases reply with _ | _ | _
    · exact ⟨h, rfl, fun _ => rfl, fun hi => hi⟩
    · exact ⟨h, rfl, fun _ => rfl, fun hi => hi⟩
    · exact ⟨h, rfl, fun _ => rfl, fun _ => rfl⟩
  | set id record => exact ⟨h, rfl, fun _ => rfl, fun hi => hi⟩
  | _ => cases reply <;> exact ⟨h, rfl, fun hu => hu, fun hi => hi⟩

lemma kept {t : ℕ} {secret : String} (hp : (knows a.tid log).Permits hash a.op)
    (h : (knows t log).secret = some secret) : (knows t (.act a :: log)).secret = some secret ∧
      (knows t (.act a :: log)).looked = (knows t log).looked ∧
      ((knows t log).used = true → (knows t (.act a :: log)).used = true) ∧
      ((knows t log).issued = true → (knows t (.act a :: log)).issued = true) := by
  rcases known_act_cases (D := secretKeeping hash) a t log with he | ⟨rfl, he⟩
  · simp only [knows, he]
    exact ⟨h, trivial, fun hu => hu, fun hi => hi⟩
  · have hk := @kept_next hash _ _ a.reply _ hp h
    simp only [knows, he]
    exact hk

lemma secret_cases {t : ℕ} {secret : String} (h : (knows t (.act a :: log)).secret = some secret) :
    (knows t log).secret = some secret ∨ a.tid = t ∧ secretOf (.act a) = some secret := by
  rcases known_act_cases (D := secretKeeping hash) a t log with he | ⟨rfl, he⟩
  · rw [knows, he] at h
    exact .inl h
  · rw [knows, he] at h
    rcases @secret_next hash _ _ _ _ h with h | ⟨t, choice, h⟩
    · exact .inl h
    · exact .inr ⟨rfl, secretOf_act.trans h⟩

lemma issued_cases {t : ℕ} (hexec : a.op.exec a.choice s = some (a.reply, s'))
    (h : (knows t (.act a :: log)).issued = true) :
    (knows t log).issued = true ∨ a.tid = t ∧ ∃ id keyHash, change (.act a) = some (.issue id keyHash) := by
  obtain ⟨u, op, choice, reply⟩ := a
  rcases known_act_cases (D := secretKeeping hash) ⟨u, op, choice, reply⟩ t log with he | ⟨rfl, he⟩
  · rw [knows, he] at h
    exact .inl h
  · rw [knows, he] at h
    simp only at hexec h
    cases op with
    | claimAndIssueCredential id keyHash =>
      rcases reply with _ | _ | record
      · exact .inl h
      · exact .inl h
      · refine .inr ⟨rfl, id, keyHash, ?_⟩
        cases choice with
        | done => rfl
        | fail committed =>
          cases committed with
          | true =>
            obtain ⟨_, -, hr⟩ := Option.map_eq_some_iff.mp hexec
            cases hr
          | false => cases hexec
        | _ => cases hexec
    | get id => rcases reply with _ | _ | _ <;> exact .inl h
    | _ => cases reply <;> exact .inl h

end Log

section Consistency

variable {a : (accessRecords hash).Action} {log : (accessRecords hash).Log} {s s' : State}
  {id keyHash : String} {record : AnalystAccess} {t u : ℕ}

lemma change_act {c : Change} (h : change (.act a) = some c) : a.op.change = some c := by
  simp only [change, Option.ite_none_right_eq_some] at h
  exact h.2

lemma set_of_change (h : change (.act a) = some (.write id record)) : a.op = .set id record := by
  have hc := change_act h
  obtain ⟨t, op, choice, reply⟩ := a
  cases op <;> cases hc
  rfl

lemma claim_of_change (h : change (.act a) = some (.issue id keyHash)) : a.op = .claimAndIssueCredential id keyHash := by
  have hc := change_act h
  obtain ⟨t, op, choice, reply⟩ := a
  cases op <;> cases hc
  rfl

lemma used_next {q : Knowledge} {op : Op} {reply : Except String op.Res}
    (h : (∃ id record, op = .set id record) ∨ ∃ id keyHash, op = .claimAndIssueCredential id keyHash) :
    (q.next op reply).used = true := by
  rcases h with ⟨id, record, rfl⟩ | ⟨id, keyHash, rfl⟩
  · rfl
  · rcases reply with _ | _ | _ <;> rfl

/-- The hash of the caller's secret has been sent to the store. -/
def Stored (log : (accessRecords hash).Log) (t : ℕ) (secret : String) : Prop :=
  (knows t log).secret = some secret ∧ (knows t log).used = true

structure Consistent (s : State) (log : (accessRecords hash).Log) : Prop where
  held {t : ℕ} {secret : String} : (knows t log).secret = some secret → secret ∈ secrets log
  owner {t u : ℕ} {secret secret' : String} : (knows t log).secret = some secret → (knows u log).secret = some secret' →
    hash secret = hash secret' → t = u
  id {id : String} {record : AnalystAccess} : s.docs.lookup id = some record →
    ∃ t secret, Stored log t secret ∧ (knows t log).looked = none ∧ id = hash secret
  key {id keyHash : String} {record : AnalystAccess} : s.docs.lookup id = some record →
    record.credentialKeyHash = some keyHash →
    record.claimedAt.isSome = true ∧ ∃ t secret, Stored log t secret ∧ keyHash = hash secret ∧
      ((knows t log).looked = none ∧ id = keyHash ∨ ∃ record, (knows t log).looked = some (id, record))
  issued {t : ℕ} : (knows t log).issued = true → ∃ secret id looked record, Stored log t secret ∧
    (knows t log).looked = some (id, looked) ∧ s.docs.lookup id = some record ∧
    record.credentialKeyHash = some (hash secret)

lemma Stored.later {secret : String} (h : Stored log t secret) (hp : (knows a.tid log).Permits hash a.op) :
    Stored (.act a :: log) t secret ∧ (knows t (.act a :: log)).looked = (knows t log).looked := by
  obtain ⟨hs, hl, hu, -⟩ := kept hp h.1
  exact ⟨⟨hs, hu h.2⟩, hl⟩

lemma Consistent.absent (h : Consistent s log) {secret : String} (hs : (knows t log).secret = some secret)
    (hu : (knows t log).used = false) : s.docs.lookup (hash secret) = none := by
  rw [Option.eq_none_iff_forall_ne_some]
  intro record hl
  obtain ⟨u, secret', hstored, -, he⟩ := h.id hl
  obtain rfl := h.owner hs hstored.1 he
  rw [hstored.2] at hu
  cases hu

/-- What a write, or an issue, says of the caller that made it. -/
lemma Consistent.writer (h : Consistent s log) (hp : (knows a.tid log).Permits hash a.op)
    (hc : change (.act a) = some (.write id record)) : ∃ secret, Stored (.act a :: log) a.tid secret ∧
      (knows a.tid (.act a :: log)).looked = none ∧ id = hash secret ∧ s.docs.lookup id = none ∧ Minted id record := by
  have hop := set_of_change hc
  rw [hop] at hp
  obtain ⟨secret, hs, hu, hl, rfl, hminted⟩ := hp
  have hp : (knows a.tid log).Permits hash a.op := hop ▸ ⟨secret, hs, hu, hl, rfl, hminted⟩
  obtain ⟨hs', hl', -⟩ := kept hp hs
  have hused : (knows a.tid (.act a :: log)).used = true := by
    rw [knows, known_act_self]
    exact used_next (.inl ⟨_, _, hop⟩)
  exact ⟨secret, ⟨hs', hused⟩, hl'.trans hl, rfl, h.absent hs hu, hminted⟩

lemma issuer (hp : (knows a.tid log).Permits hash a.op) (hc : change (.act a) = some (.issue id keyHash)) :
    ∃ secret looked, Stored (.act a :: log) a.tid secret ∧
      (knows a.tid (.act a :: log)).looked = some (id, looked) ∧ keyHash = hash secret := by
  have hop := claim_of_change hc
  rw [hop] at hp
  obtain ⟨secret, looked, now, hs, hu, hl, rfl, hnow⟩ := hp
  have hp : (knows a.tid log).Permits hash a.op := hop ▸ ⟨secret, looked, now, hs, hu, hl, rfl, hnow⟩
  obtain ⟨hs', hl', -⟩ := kept hp hs
  have hused : (knows a.tid (.act a :: log)).used = true := by
    rw [knows, known_act_self]
    exact used_next (.inr ⟨_, _, hop⟩)
  exact ⟨secret, looked, ⟨hs', hused⟩, hl'.trans hl, rfl⟩

lemma Consistent.act (h : Consistent s log) (hp : (knows a.tid log).Permits hash a.op)
    (hexec : a.op.exec a.choice s = some (a.reply, s')) (hg : freshSecrets hash s log (.act a)) :
    Consistent s' (.act a :: log) := by
  have hc := exec_changes hexec
  have hfresh (id : String) (record : AnalystAccess) (hw : change (.act a) = some (.write id record)) :
      s.docs.lookup id = none := by
    obtain ⟨_, _, _, _, hnone, _⟩ := h.writer hp hw
    exact hnone
  refine ⟨fun {t secret} hs => ?_, fun {t u secret secret'} hs hs' he => ?_, fun {id record} hl => ?_,
    fun {id keyHash record} hl hk => ?_, fun {t} hi => ?_⟩
  · have hlog : secrets (.act a :: log) = (secretOf (.act a)).toList ++ secrets log := by
      cases hsecret : secretOf (.act a) <;> simp [secrets, hsecret]
    rw [hlog, List.mem_append]
    rcases secret_cases hs with hs | ⟨-, hs⟩
    · exact .inr (h.held hs)
    · rw [hs]
      exact .inl (List.mem_singleton_self _)
  · have hnew {secret earlier : String} (hs : secretOf (.act a) = some secret) (hm : earlier ∈ secrets log) :
        hash secret ≠ hash earlier := by
      simp only [freshSecrets, hs, Option.all_some, List.all_eq_true, bne_iff_ne] at hg
      exact hg earlier hm
    rcases secret_cases hs with hs | ⟨ht, hs⟩
    · rcases secret_cases hs' with hs' | ⟨hu, hs'⟩
      · exact h.owner hs hs' he
      · exact absurd he.symm (hnew hs' (h.held hs))
    · rcases secret_cases hs' with hs' | ⟨hu, hs'⟩
      · exact absurd he (hnew hs (h.held hs'))
      · exact ht.symm.trans hu
  · rcases hc.origin hfresh hl with hw | ⟨old, hold, -⟩
    · obtain ⟨secret, hstored, hlooked, rfl, -⟩ := h.writer hp hw
      exact ⟨a.tid, secret, hstored, hlooked, rfl⟩
    · obtain ⟨t, secret, hstored, hlooked, rfl⟩ := h.id hold
      exact ⟨t, secret, (hstored.later hp).1, (hstored.later hp).2.trans hlooked, rfl⟩
  · rcases hc.origin hfresh hl with hw | ⟨old, hold, hs⟩
    · obtain ⟨secret, hstored, hlooked, rfl, -, -, ⟨hnone, -⟩ | ⟨hkey, hclaimed⟩⟩ := h.writer hp hw
      · rw [hnone] at hk
        cases hk
      · obtain rfl := Option.some.inj (hk.symm.trans hkey)
        exact ⟨hclaimed, a.tid, secret, hstored, rfl, .inl ⟨hlooked, rfl⟩⟩
    · have hkept (hk : old.credentialKeyHash = some keyHash) : old.claimedAt.isSome = true ∧ ∃ t secret,
          Stored (.act a :: log) t secret ∧ keyHash = hash secret ∧
          ((knows t (.act a :: log)).looked = none ∧ id = keyHash ∨
            ∃ record, (knows t (.act a :: log)).looked = some (id, record)) := by
        obtain ⟨hclaimed, t, secret, hstored, rfl, hlooked⟩ := h.key hold hk
        rw [← (hstored.later hp).2] at hlooked
        exact ⟨hclaimed, t, secret, (hstored.later hp).1, rfl, hlooked⟩
      cases hs with
      | same _ => exact hkept hk
      | issue keyHash' claimedAt hc' _ =>
        obtain rfl := Option.some.inj hk
        obtain ⟨secret, looked, hstored, hlooked, rfl⟩ := issuer hp hc'
        exact ⟨rfl, a.tid, secret, hstored, rfl, .inr ⟨looked, hlooked⟩⟩
      | revoke revokedAt hc' => exact hkept hk
  · rcases issued_cases hexec hi with hi | ⟨rfl, id, keyHash, hissue⟩
    · obtain ⟨secret, id, looked, record, hstored, hlooked, hl, hk⟩ := h.issued hi
      have hl' := (hstored.later hp).2.trans hlooked
      obtain ⟨record', hrecord, hs⟩ := (hc.lookup hfresh).1 record hl
      refine ⟨secret, id, looked, record', (hstored.later hp).1, hl', hrecord, ?_⟩
      cases hs with
      | same _ => exact hk
      | issue keyHash claimedAt _ hclaimed =>
        have hsome := (h.key hl hk).1
        rw [hclaimed] at hsome
        cases hsome
      | revoke revokedAt _ => exact hk
    · obtain ⟨secret, looked, hstored, hlooked, rfl⟩ := issuer hp hissue
      rw [hissue] at hc
      cases hc with
      | issue _ _ record hl hclaimed => exact ⟨secret, id, looked, _, hstored, hlooked, lookup_put_self, rfl⟩

/-- Each record, and what was written, issued and revoked under its id. -/
structure Recorded (s : State) (log : (accessRecords hash).Log) : Prop where
  written {id : String} {record : AnalystAccess} : s.docs.lookup id = some record → ∃ first,
    .write id first ∈ changes log ∧ record.terms = first.terms ∧
    (∀ keyHash, record.credentialKeyHash = some keyHash ↔
      first.credentialKeyHash = some keyHash ∨ .issue id keyHash ∈ changes log) ∧
    (record.revokedAt.isSome = true ↔ ∃ revokedAt, .revoke id revokedAt ∈ changes log)
  once {id : String} {first first' : AnalystAccess} : .write id first ∈ changes log → .write id first' ∈ changes log →
    first = first'
  present {c : Change} : c ∈ changes log → ∃ record, s.docs.lookup c.id = some record

lemma mem_changes_cons {e : (accessRecords hash).Entry} {c : Change} :
    c ∈ changes (e :: log) ↔ change e = some c ∨ c ∈ changes log := by
  cases h : change e <;> simp [changes, h, eq_comm]

lemma Recorded.act (h : Recorded s log) (hcons : Consistent s log) (hp : (knows a.tid log).Permits hash a.op)
    (hc : Changes s (change (.act a)) s') : Recorded s' (.act a :: log) := by
  have hminted (id : String) (record : AnalystAccess) (hw : change (.act a) = some (.write id record)) :
      s.docs.lookup id = none ∧ Minted id record := by
    obtain ⟨_, _, _, _, hnone, hminted⟩ := hcons.writer hp hw
    exact ⟨hnone, hminted⟩
  have hfresh id record hw := (hminted id record hw).1
  have habsent {c : Change} (hn : s.docs.lookup c.id = none) : c ∉ changes log := by
    intro hm
    obtain ⟨record, hl⟩ := h.present hm
    rw [hn] at hl
    cases hl
  refine ⟨fun {id record} hl => ?_, fun {id first first'} hm hm' => ?_, fun {c} hm => ?_⟩
  · rcases hc.origin hfresh hl with hw | ⟨old, hold, hs⟩
    · obtain ⟨hn, hrevoked, -⟩ := hminted id record hw
      refine ⟨record, mem_changes_cons.mpr (.inl hw), rfl, fun keyHash => ?_, ?_⟩
      · have hm : .issue id keyHash ∉ changes log := habsent hn
        simp [mem_changes_cons, hw, hm]
      · have hm revokedAt : .revoke id revokedAt ∉ changes log := habsent hn
        simp [mem_changes_cons, hw, hm, hrevoked]
    · obtain ⟨first, hfirst, hterms, hkey, hrevoked⟩ := h.written hold
      refine ⟨first, mem_changes_cons.mpr (.inr hfirst), ?_⟩
      cases hs with
      | same hother =>
        refine ⟨hterms, fun keyHash => ?_, ?_⟩
        · have hne : change (.act a) ≠ some (.issue id keyHash) := fun he => hother _ he rfl
          simp [mem_changes_cons, hne, hkey]
        · have hne revokedAt : change (.act a) ≠ some (.revoke id revokedAt) := fun he => hother _ he rfl
          simp [mem_changes_cons, hne, hrevoked]
      | issue keyHash claimedAt hissue hclaimed =>
        have hnone : old.credentialKeyHash = none := by
          cases hk : old.credentialKeyHash with
          | none => rfl
          | some keyHash =>
            have hsome := (hcons.key hold hk).1
            rw [hclaimed] at hsome
            cases hsome
        refine ⟨hterms, fun keyHash' => ?_, ?_⟩
        · have hk := hkey keyHash'
          rw [hnone] at hk
          simp only [reduceCtorEq, false_iff, not_or] at hk
          simp [mem_changes_cons, hissue, hk]
        · simp [mem_changes_cons, hissue, hrevoked]
      | revoke revokedAt hrevoke =>
        refine ⟨hterms, fun keyHash => ?_, ?_⟩
        · simp [mem_changes_cons, hrevoke, hkey]
        · simp only [AnalystAccess.revokedAt_revoke, Option.isSome_some, true_iff]
          exact ⟨revokedAt, mem_changes_cons.mpr (.inl hrevoke)⟩
  · have hnever {first first' : AnalystAccess} (hw : change (.act a) = some (.write id first)) :
        .write id first' ∉ changes log := habsent (hfresh id first hw)
    rcases mem_changes_cons.mp hm with hw | hm <;> rcases mem_changes_cons.mp hm' with hw' | hm'
    · rw [hw] at hw'
      cases hw'
      rfl
    · exact absurd hm' (hnever hw)
    · exact absurd hm (hnever hw')
    · exact h.once hm hm'
  · rcases mem_changes_cons.mp hm with hw | hm
    · rw [hw] at hc
      cases hc <;> exact ⟨_, lookup_put_self⟩
    · obtain ⟨record, hl⟩ := h.present hm
      obtain ⟨record', hl', -⟩ := (hc.lookup hfresh).1 record hl
      exact ⟨record', hl'⟩

lemma ledger_inductive (hash : String → String) :
    Inductive (secretKeeping hash) (fun _ => True) (freshSecrets hash)
      (fun s log => Consistent s log ∧ Recorded s log) := by
  refine ⟨fun {s s' log a} hi ha => ?_, fun {s s' log n} hi _ he _ => ?_⟩
  · exact ⟨hi.1.act ha.allowed ha.exec ha.guard, hi.2.act hi.1 ha.allowed (exec_changes ha.exec)⟩
  · obtain rfl := Option.some.inj he
    exact ⟨⟨hi.1.held, hi.1.owner, hi.1.id, hi.1.key, hi.1.issued⟩, ⟨hi.2.written, hi.2.once, hi.2.present⟩⟩

lemma ledger_reachable {now : Date} {c : (accessRecords hash).Config}
    (h : Reachable (freshSecrets hash) (noRecords hash now) c) :
    Consistent c.state c.log ∧ Recorded c.state c.log := by
  refine (ledger_inductive hash).run (secretKeeping_governs hash) (conforms_initial trivial) ⟨?_, ?_⟩ h
  · exact ⟨nofun, nofun, nofun, nofun, nofun⟩
  · exact ⟨nofun, nofun, nofun⟩

end Consistency

end ChameleonVault.ScopedAccess
